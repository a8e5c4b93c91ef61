import UniJit.Status
import UniJit.Lib.LittleEndian
import UniJit.Lib.Checked
import UniJit.Lib.Transitions

/-!
# The background compilation scheduler

A bounded queue of compilation tasks in three priority lanes, a table of the tasks that are queued
or running, and a fixed number of workers. Clients submit requests, wait for queue space, cancel
through tickets and shut the scheduler down; each worker takes a task under the scheduler lock,
runs its job without the lock, and takes the lock again to publish the result.

The model is a transition system. One event is one stretch of code that no other thread can
observe half done: a critical section, or the atomic load by which a worker samples the
cancellation flag after its job returned. The job itself is not modelled; what it returns is part
of the event.

A task lives in `tasks` from its admission on, and its position there stands for the shared
pointer to it. The nested hash tables of identities are one finite map, keyed by identity and
generation.
-/

namespace UniJit.Jit

open Lib

/-- The scheduling class of a request, lowest first. -/
inductive CompilationPriority
  | background
  | normal
  | urgent
  deriving DecidableEq, Repr

/-- The life of a task. -/
inductive CompilationTaskState
  | invalid
  | queued
  | running
  | succeeded
  | failed
  | cancelled
  deriving DecidableEq, Repr

namespace CompilationTaskState

/-- The states a task ends in. -/
def terminal (state : CompilationTaskState) : Bool :=
  state = .succeeded ∨ state = .failed ∨ state = .cancelled

end CompilationTaskState

/-- Whether a shutdown runs or cancels what is queued. -/
inductive SchedulerShutdownMode
  | drain
  | cancel
  deriving DecidableEq, Repr

/-- The most workers. -/
def maximumWorkers : Nat := 256
/-- The longest identity. -/
def maximumIdentityBytes : Nat := 4096
/-- The urgent tasks after which another lane has a turn. -/
def urgentBurstLimit : Nat := 4
/-- The normal tasks after which the background lane has a turn. -/
def normalBurstLimit : Nat := 2

/-! ## Machine arithmetic of the counters -/

/-- The largest value of a 64-bit counter. -/
def maximumCounter : Nat := 2 ^ 64 - 1

/-- Counts without wrapping. -/
def saturatingIncrement (value : Nat) : Nat :=
  if value ≠ maximumCounter then value + 1 else value

/-- Unsigned 64-bit addition. -/
def sizeAdd (a b : Nat) : Nat := (a + b) % 2 ^ 64

/-- Unsigned 64-bit subtraction. The borrow is a case of its own, since definitional unfolding
would otherwise count up to the modulus. -/
def sizeSub (a b : Nat) : Nat := if b ≤ a then a - b else a + 2 ^ 64 - b

lemma sizeAdd_eq {a b : Nat} (h : a + b < 2 ^ 64) : sizeAdd a b = a + b :=
  Nat.mod_eq_of_lt h

lemma sizeSub_eq {a b : Nat} (h : b ≤ a) : sizeSub a b = a - b :=
  if_pos h

/-- What a saturating counter shows for an exact count. -/
def saturated (count : Nat) : Nat := min count maximumCounter

/-- Saturated counting counts saturated numbers. -/
lemma saturatingIncrement_saturated (count : Nat) :
    saturatingIncrement (saturated count) = saturated (count + 1) := by
  unfold saturatingIncrement saturated
  split_ifs with h <;> omega

/-! ## Requests, tasks and the scheduler state -/

lemma defaultQueuedTasks_lt : 64 < 2 ^ 64 := by decide

lemma defaultQueuedBytes_lt : 64 * 1024 * 1024 < 2 ^ 64 := by decide

/-- The options of a scheduler, which fit the size type. -/
structure CompilationSchedulerOptions where
  workerCount : Nat := 0
  maximumQueuedTasks : Nat := 64
  maximumQueuedBytes : Nat := 64 * 1024 * 1024
  maximumQueuedTasks_lt : maximumQueuedTasks < 2 ^ 64 := by
    first | exact defaultQueuedTasks_lt | decide
  maximumQueuedBytes_lt : maximumQueuedBytes < 2 ^ 64 := by
    first | exact defaultQueuedBytes_lt | decide

/-- A submission. The priority is `none` for a byte that names no priority, and `job` says whether
the request carries a callable. -/
structure CompilationRequest where
  identity : List (BitVec 8)
  generation : Nat := 0
  estimatedBytes : Nat := 1
  priority : Option CompilationPriority := some .normal
  job : Bool := true

/-- What identifies a compilation: its identity and generation. -/
abbrev TaskKey := List (BitVec 8) × Nat

/-- What identifies a request. -/
def CompilationRequest.key (request : CompilationRequest) : TaskKey :=
  (request.identity, request.generation)

/-- The outcome of a job or a task: nothing, or the status it failed with. -/
abbrev Outcome := Except Status Unit

/-- The status of a cancelled task. -/
def cancelledStatus : Status := ⟨.cancelled, "compilation task was cancelled", 0⟩

/-- A task of the scheduler. -/
structure CompilationTask where
  id : Nat
  identity : List (BitVec 8)
  generation : Nat
  estimatedBytes : Nat
  priority : CompilationPriority
  state : CompilationTaskState := .queued
  cancellationRequested : Bool := false
  outcome : Outcome := .error ⟨.unavailable, "compilation task has not completed", 0⟩
  completed : Bool := false

/-- What identifies a task. -/
def CompilationTask.key (task : CompilationTask) : TaskKey := (task.identity, task.generation)

/-- The counters of a scheduler. -/
structure CompilationSchedulerStats where
  workerCount : Nat := 0
  queuedTasks : Nat := 0
  queuedBytes : Nat := 0
  activeWorkers : Nat := 0
  peakQueuedTasks : Nat := 0
  peakQueuedBytes : Nat := 0
  peakActiveWorkers : Nat := 0
  submitted : Nat := 0
  deduplicated : Nat := 0
  started : Nat := 0
  succeeded : Nat := 0
  failed : Nat := 0
  cancelled : Nat := 0
  rejectedCapacity : Nat := 0
  rejectedClosed : Nat := 0
  submissionWaits : Nat := 0
  submissionTimeouts : Nat := 0
  accepting : Bool := false

/-- Where a worker thread is in its loop: waiting for the lock or for work, running a job, between
the sample of the cancellation flag and the publication of the result, or returned. -/
inductive Worker
  | waiting
  | running (task : Nat)
  | completing (task : Nat) (state : CompilationTaskState) (outcome : Outcome)
  | exited

/-- The task a worker has taken and not yet published. -/
def Worker.task? : Worker → Option Nat
  | .running h => some h
  | .completing h _ _ => some h
  | _ => none

/-- The worker's loop has ended. -/
def Worker.hasExited : Worker → Bool
  | .exited => true
  | _ => false

/-- The progress of `shutdown`, which holds its own mutex until the workers are joined. -/
inductive ShutdownPhase
  | notStarted
  | joining
  | joined
  deriving DecidableEq, Repr

/-- The shared state, with the threads that work on it: the workers, and the submissions that wait
for queue space. `released` says that the last owner of the state is gone. -/
structure SchedulerState where
  options : CompilationSchedulerOptions
  tasks : List CompilationTask := []
  queues : CompilationPriority → List Nat := fun _ => []
  identities : TaskKey → Option Nat := fun _ => none
  statistics : CompilationSchedulerStats
  nextTaskId : Nat := 1
  urgentBurst : Nat := 0
  normalBurst : Nat := 0
  workers : List Worker
  submitters : List CompilationRequest := []
  shutdownPhase : ShutdownPhase := .notStarted
  released : Bool := false

/-- What the threads of the process can do next. -/
inductive SchedulerEvent
  | submit (request : CompilationRequest) (timeout : Option Int) (allocates : Bool)
  | wake (submitter : Nat) (allocates : Bool)
  | timeout (submitter : Nat)
  | cancel (ticket : Nat)
  | pop (worker : Nat)
  | sample (worker : Nat) (outcome : Outcome)
  | publish (worker : Nat)
  | shutdown (mode : SchedulerShutdownMode)
  | join (self : Option Nat)
  | release

/-! ## Validation -/

/-- The requested number of workers, or one that fits the hardware. -/
def resolvedWorkerCount (requested hardwareConcurrency : Nat) : Nat :=
  if requested ≠ 0 then requested
  else if hardwareConcurrency = 0 then 1
  else min hardwareConcurrency maximumWorkers

/-- Refuses options that make no sense. -/
def validateOptions (options : CompilationSchedulerOptions) (workers : Nat) :
    Except Status Unit := do
  require (¬(workers = 0 ∨ maximumWorkers < workers))
    ⟨.invalidArgument, "compilation scheduler worker count is outside its limit", 0⟩
  require (¬(options.maximumQueuedTasks = 0 ∨ options.maximumQueuedBytes = 0))
    ⟨.invalidArgument, "compilation scheduler queue limits must be nonzero", 0⟩

/-- The answer to a submission. -/
structure CompilationSubmission where
  status : Outcome
  ticket : Option Nat := none
  enqueued : Bool := false
  deduplicated : Bool := false

/-- A refusal. -/
def CompilationSubmission.rejected (status : Status) : CompilationSubmission :=
  { status := .error status }

/-- Refuses a request that makes no sense. -/
def validateRequest (request : CompilationRequest) (options : CompilationSchedulerOptions) :
    Except Status CompilationPriority := do
  require (¬(request.identity = [] ∨ maximumIdentityBytes < request.identity.length))
    ⟨.invalidArgument, "compilation identity is empty or exceeds 4096 bytes", 0⟩
  require (request.estimatedBytes ≠ 0)
    ⟨.invalidArgument, "compilation request must estimate a nonzero byte cost", 0⟩
  require (¬options.maximumQueuedBytes < request.estimatedBytes)
    ⟨.resourceExhausted, "compilation request exceeds the scheduler byte budget", 0⟩
  require (request.job = true) ⟨.invalidArgument, "compilation request has no job", 0⟩
  match request.priority with
  | some priority => pure priority
  | none => .error ⟨.invalidArgument, "compilation request has an unknown priority", 0⟩

namespace SchedulerState

/-! ## Operations under the lock -/

/-- The task of an identity. -/
def findTask (s : SchedulerState) (key : TaskKey) : Option Nat := s.identities key

/-- Change the task a pointer refers to. -/
def updateTask (s : SchedulerState) (h : Nat) (f : CompilationTask → CompilationTask) :
    SchedulerState :=
  { s with tasks := s.tasks.modify h f }

/-- Changes the counters. -/
def updateStatistics (s : SchedulerState)
    (f : CompilationSchedulerStats → CompilationSchedulerStats) : SchedulerState :=
  { s with statistics := f s.statistics }

/-- Remove a task from the table, if the table holds this task under its key. -/
def eraseTask (s : SchedulerState) (h : Nat) : SchedulerState :=
  match s.tasks[h]? with
  | none => s
  | some task =>
      if s.identities task.key = some h then
        { s with identities := Function.update s.identities task.key none }
      else s

/-- Ends a task and takes it out of the identities. -/
def completeTask (s : SchedulerState) (h : Nat) (state : CompilationTaskState)
    (outcome : Outcome) : SchedulerState :=
  s.updateTask h fun task =>
    { task with outcome := outcome, state := state, completed := true }

/-- The queue has room for a task. -/
def queueHasCapacity (s : SchedulerState) (estimatedBytes : Nat) : Bool :=
  s.statistics.queuedTasks < s.options.maximumQueuedTasks ∧
    estimatedBytes ≤ sizeSub s.options.maximumQueuedBytes s.statistics.queuedBytes

/-- The lane to take from, with the new burst counters: urgent tasks first, but after four of them
in a row one of the other lanes, and after two normal ones a background task. -/
def selectLane (s : SchedulerState) : Option (CompilationPriority × Nat × Nat) :=
  if s.queues .urgent ≠ [] ∧
      (s.urgentBurst < urgentBurstLimit ∨ (s.queues .normal = [] ∧ s.queues .background = [])) then
    some (.urgent, sizeAdd s.urgentBurst 1, s.normalBurst)
  else if s.queues .normal ≠ [] ∧
      (s.normalBurst < normalBurstLimit ∨ s.queues .background = []) then
    some (.normal, 0, sizeAdd s.normalBurst 1)
  else if s.queues .background ≠ [] then some (.background, 0, 0)
  else if s.queues .urgent ≠ [] then some (.urgent, 1, s.normalBurst)
  else if s.queues .normal ≠ [] then some (.normal, 0, 1)
  else none

/-- Take the front task of the selected lane and mark it running. -/
def popTask (s : SchedulerState) : Option (Nat × SchedulerState) := do
  let (lane, urgentBurst, normalBurst) ← s.selectLane
  let h ← (s.queues lane).head?
  let task ← s.tasks[h]?
  let statistics := { s.statistics with
    queuedTasks := sizeSub s.statistics.queuedTasks 1
    queuedBytes := sizeSub s.statistics.queuedBytes task.estimatedBytes
    activeWorkers := sizeAdd s.statistics.activeWorkers 1
    peakActiveWorkers :=
      max s.statistics.peakActiveWorkers (sizeAdd s.statistics.activeWorkers 1)
    started := saturatingIncrement s.statistics.started }
  let popped := { s with
    queues := Function.update s.queues lane (s.queues lane).tail
    urgentBurst := urgentBurst
    normalBurst := normalBurst
    statistics := statistics }
  pure (h, popped.updateTask h fun task => { task with state := .running })

/-! ## The worker loop -/

/-- A worker whose wait condition holds takes the lock: it returns when nothing is queued, and
takes a task otherwise. -/
def workerPop (s : SchedulerState) (w : Nat) : Option SchedulerState :=
  match s.workers[w]? with
  | some .waiting =>
      if s.statistics.queuedTasks ≠ 0 ∨ s.statistics.accepting = false then
        if s.statistics.queuedTasks = 0 then
          some { s with workers := s.workers.set w .exited }
        else do
          let (h, s') ← s.popTask
          pure { s' with workers := s'.workers.set w (.running h) }
      else none
  | _ => none

/-- The job of a running worker returned (an exception is an outcome of its own kind): the worker
samples the cancellation flag and settles the state and outcome it is going to publish. -/
def workerSample (s : SchedulerState) (w : Nat) (outcome : Outcome) : Option SchedulerState :=
  match s.workers[w]? with
  | some (.running h) => do
      let task ← s.tasks[h]?
      let jobCancelled := match outcome with
        | .error status => status.code == .cancelled
        | .ok _ => false
      let cancelled := task.cancellationRequested || jobCancelled
      let finalState : CompilationTaskState :=
        if cancelled then .cancelled else if outcome.isOk then .succeeded else .failed
      let published : Outcome :=
        if cancelled && !jobCancelled then .error cancelledStatus else outcome
      pure { s with workers := s.workers.set w (.completing h finalState published) }
  | _ => none

/-- The worker takes the lock again and publishes. -/
def workerPublish (s : SchedulerState) (w : Nat) : Option SchedulerState :=
  match s.workers[w]? with
  | some (.completing h finalState outcome) =>
      let finished := (s.updateStatistics fun statistics =>
        { statistics with activeWorkers := sizeSub statistics.activeWorkers 1 }).eraseTask h
      let counted := finished.updateStatistics fun statistics =>
        match finalState with
        | .succeeded =>
            { statistics with succeeded := saturatingIncrement statistics.succeeded }
        | .cancelled =>
            { statistics with cancelled := saturatingIncrement statistics.cancelled }
        | _ => { statistics with failed := saturatingIncrement statistics.failed }
      let completed := counted.completeTask h finalState outcome
      some { completed with workers := completed.workers.set w .waiting }
  | _ => none

/-! ## Tickets -/

/-- Remove a queued task from its lane and from the queue budgets. -/
def dequeue (s : SchedulerState) (h : Nat) (task : CompilationTask) : SchedulerState :=
  { s with
    queues := Function.update s.queues task.priority ((s.queues task.priority).erase h)
    statistics := { s.statistics with
      queuedTasks := sizeSub s.statistics.queuedTasks 1
      queuedBytes := sizeSub s.statistics.queuedBytes task.estimatedBytes } }

/-- Drop a task that left its lane: out of the table, counted and completed as cancelled. -/
def discard (s : SchedulerState) (h : Nat) : SchedulerState :=
  ((s.eraseTask h).updateStatistics fun statistics =>
    { statistics with cancelled := saturatingIncrement statistics.cancelled }).completeTask h
      .cancelled (.error cancelledStatus)

/-- `CompilationTicket::cancel`: whether the request took effect, and the state after it. Once the
scheduler state is gone only the flag is left to set. -/
def cancel (s : SchedulerState) (h : Nat) : Bool × SchedulerState :=
  match s.tasks[h]? with
  | none => (false, s)
  | some task =>
      if task.state.terminal then (false, s)
      else
        let changed := !task.cancellationRequested
        let flagged := s.updateTask h fun task => { task with cancellationRequested := true }
        if s.released then (changed, flagged)
        else if task.state ≠ .queued then (changed, flagged)
        else if h ∉ s.queues task.priority then (changed, flagged)
        else (changed, (flagged.dequeue h task).discard h)

/-! ## Submission -/

/-- Put a new task into the table and at the back of its lane. -/
def enroll (s : SchedulerState) (request : CompilationRequest) (priority : CompilationPriority) :
    SchedulerState :=
  let h := s.tasks.length
  let queuedTasks := sizeAdd s.statistics.queuedTasks 1
  let queuedBytes := sizeAdd s.statistics.queuedBytes request.estimatedBytes
  { s with
    tasks := s.tasks ++ [{
      id := s.nextTaskId
      identity := request.identity
      generation := request.generation
      estimatedBytes := request.estimatedBytes
      priority := priority }]
    identities := Function.update s.identities request.key (some h)
    queues := Function.update s.queues priority (s.queues priority ++ [h])
    statistics := { s.statistics with
      queuedTasks := queuedTasks
      queuedBytes := queuedBytes
      peakQueuedTasks := max s.statistics.peakQueuedTasks queuedTasks
      peakQueuedBytes := max s.statistics.peakQueuedBytes queuedBytes
      submitted := saturatingIncrement s.statistics.submitted } }

/-- Task numbers start over at one. -/
def followingTaskId (id : Nat) : Nat := if id = maximumCounter then 1 else id + 1

/-- The loop body of `submit` under the lock: a result, or `none` when the queue is full. An
allocation failure has used up a task number and undone everything else. -/
def attempt (s : SchedulerState) (request : CompilationRequest) (priority : CompilationPriority)
    (allocates : Bool) : Option CompilationSubmission × SchedulerState :=
  match s.findTask request.key with
  | some h =>
      (some { status := .ok (), ticket := some h, deduplicated := true },
        s.updateStatistics fun statistics =>
          { statistics with deduplicated := saturatingIncrement statistics.deduplicated })
  | none =>
      if s.statistics.accepting = false then
        (some (.rejected ⟨.unavailable, "compilation scheduler is closed", 0⟩),
          s.updateStatistics fun statistics =>
            { statistics with rejectedClosed := saturatingIncrement statistics.rejectedClosed })
      else if s.queueHasCapacity request.estimatedBytes then
        let numbered := { s with nextTaskId := followingTaskId s.nextTaskId }
        if allocates then
          (some { status := .ok (), ticket := some s.tasks.length, enqueued := true },
            { s.enroll request priority with nextTaskId := numbered.nextTaskId })
        else
          (some (.rejected
            ⟨.resourceExhausted, "unable to allocate compilation queue state", 0⟩), numbered)
      else (none, s)

/-- `CompilationScheduler::submit` up to its first wait: `timeout` is `none` for `try_submit`.
A submission that has to wait joins the submitters and has no result yet. -/
def submit (s : SchedulerState) (request : CompilationRequest) (timeout : Option Int)
    (allocates : Bool) : Option CompilationSubmission × SchedulerState :=
  if timeout.any (· < 0) then
    (some (.rejected ⟨.invalidArgument, "compilation submission timeout cannot be negative", 0⟩), s)
  else
    match validateRequest request s.options with
    | .error status =>
        (some (.rejected status),
          if status.code = .resourceExhausted then
            s.updateStatistics fun statistics =>
              { statistics with
                rejectedCapacity := saturatingIncrement statistics.rejectedCapacity }
          else s)
    | .ok priority =>
        match s.attempt request priority allocates with
        | (some submission, s') => (some submission, s')
        | (none, s') =>
            if timeout.isSome then
              (none, { s'.updateStatistics fun statistics =>
                  { statistics with
                    submissionWaits := saturatingIncrement statistics.submissionWaits } with
                submitters := s'.submitters ++ [request] })
            else
              (some (.rejected
                ⟨.resourceExhausted, "compilation scheduler queue is full", 0⟩),
                s'.updateStatistics fun statistics =>
                  { statistics with
                    rejectedCapacity := saturatingIncrement statistics.rejectedCapacity })

/-- A waiting submission is woken and goes round its loop once more. -/
def submitterWake (s : SchedulerState) (i : Nat) (allocates : Bool) : Option SchedulerState := do
  let request ← s.submitters[i]?
  let priority ← request.priority
  match s.attempt request priority allocates with
  | (some _, s') => pure { s' with submitters := s'.submitters.eraseIdx i }
  | (none, s') => pure s'

/-- A waiting submission reaches its deadline. -/
def submitterTimeout (s : SchedulerState) (i : Nat) : Option SchedulerState := do
  let _ ← s.submitters[i]?
  pure { s.updateStatistics fun statistics =>
      { statistics with
        submissionTimeouts := saturatingIncrement statistics.submissionTimeouts } with
    submitters := s.submitters.eraseIdx i }

/-! ## Shutdown -/

/-- The three lanes, in the order `shutdown` empties them. -/
def lanes (s : SchedulerState) : List Nat :=
  s.queues .background ++ s.queues .normal ++ s.queues .urgent

/-- Request cancellation of every task in the table. -/
def requestCancellation (s : SchedulerState) : SchedulerState :=
  { s with
    tasks := s.tasks.mapIdx fun h task =>
      if s.identities task.key = some h then { task with cancellationRequested := true } else task }

/-- Empty the lanes and cancel what was in them. -/
def cancelQueued (s : SchedulerState) : SchedulerState :=
  let emptied := s.lanes.foldl discard { s with queues := fun _ => [] }
  emptied.updateStatistics fun statistics =>
    { statistics with queuedTasks := 0, queuedBytes := 0 }

/-- The critical section of `shutdown`. -/
def close (s : SchedulerState) (mode : SchedulerShutdownMode) : SchedulerState :=
  let closed := s.updateStatistics fun statistics => { statistics with accepting := false }
  match mode with
  | .drain => closed
  | .cancel => closed.requestCancellation.cancelQueued

/-- `shutdown` holds its mutex from here until the workers are joined; a later call finds them
joined and changes nothing. -/
def shutdown (s : SchedulerState) (mode : SchedulerShutdownMode) : Option SchedulerState :=
  match s.shutdownPhase with
  | .notStarted => some { s.close mode with shutdownPhase := .joining }
  | .joining => none
  | .joined => some s

/-- `shutdown` has joined every worker, except the one it was called from, which it detaches. -/
def joinWorkers (s : SchedulerState) (self : Option Nat) : Option SchedulerState :=
  if s.shutdownPhase = .joining ∧
      ∀ w < s.workers.length, some w ≠ self → s.workers[w]?.any Worker.hasExited then
    some { s with shutdownPhase := .joined }
  else none

/-- The last owner of the shared state lets go: the scheduler object is destroyed, which has shut
it down, and every worker thread has returned. -/
def release (s : SchedulerState) : Option SchedulerState :=
  if s.shutdownPhase = .joined ∧ s.workers.all Worker.hasExited then
    some { s with released := true }
  else none

/-! ## The transition system -/

/-- `CompilationScheduler::create`, once its workers are started. -/
def create (options : CompilationSchedulerOptions) (hardwareConcurrency : Nat) :
    Except Status SchedulerState := do
  let workers := resolvedWorkerCount options.workerCount hardwareConcurrency
  validateOptions options workers
  pure {
    options := { options with workerCount := workers }
    statistics := { workerCount := workers, accepting := true }
    workers := List.replicate workers .waiting }

/-- One event. Once the state is released, only tickets are left to act on. -/
def step (s : SchedulerState) (e : SchedulerEvent) : Option SchedulerState :=
  match s.released, e with
  | _, .cancel h => some (s.cancel h).2
  | true, _ => none
  | false, .submit request timeout allocates => some (s.submit request timeout allocates).2
  | false, .wake i allocates => s.submitterWake i allocates
  | false, .timeout i => s.submitterTimeout i
  | false, .pop w => s.workerPop w
  | false, .sample w outcome => s.workerSample w outcome
  | false, .publish w => s.workerPublish w
  | false, .shutdown mode => s.shutdown mode
  | false, .join self => s.joinWorkers self
  | false, .release => s.release

end SchedulerState

end UniJit.Jit
