import UniJit.Jit.CompilationScheduler
import UniJit.Jit.Tiering

/-!
# Optimization of a Lua function

After an invocation of a compiled Lua function, `schedule_if_hot` claims the function when it is
hot, and submits a task that compiles it again with optimization. The claim is released by whoever
finds that there will be no optimized code, or by the publication of the optimized code: the caller
when the submission fails, else the job of the task, which is run by a worker of the scheduler.

The system below is one Lua function together with the scheduler it shares with others. Its steps
are the critical sections of the tiered code and of the scheduler, in any order: attempts of
callers to have the function optimized, the jobs of their tasks, and what other threads do to the
scheduler. The attempts are numbered, and `holder` remembers which of them has the claim.
-/

namespace UniJit.Lua

open UniJit.Jit UniJit.Lib

/-! ## The job -/

/-- What a job finds on its way: the answers to its polls for cancellation, in their order, whether
the prototype and its cache key are retained, the cached code, what the compiler and the publication
in the cache return, and whether something throws. -/
structure CompilationWorld where
  stopRequested : Nat → Bool := fun _ => false
  retained : Bool := true
  find : CodeHandle := {}
  compile : Except Status CompiledFunction
  publish : CompiledFunction → Except Status CodeHandle
  exception : Option Status := none

/-- How a job is going to end. -/
inductive JobDecision
  | fail (status : Status)
  | promote (handle : CodeHandle)
  | throw (status : Status)

/-- The status of a job that found itself cancelled. -/
def cancelledCompilationStatus : Status := ⟨.cancelled, "Lua optimization was cancelled", 0⟩

/-- The last checks of a job, once it has a handle. -/
def checkOptimized (parameterCount : Nat) (world : CompilationWorld) (optimized : CodeHandle) :
    JobDecision :=
  if optimized.parameterCount ≠ parameterCount then
    .fail ⟨.codeGenerationFailed, "cached Lua optimized signature differs from baseline", 0⟩
  else if world.stopRequested 2 then .fail cancelledCompilationStatus
  else .promote optimized

/-- `compile_optimized` up to the publication of the tier. -/
def compileOptimized (parameterCount : Nat) (world : CompilationWorld) : JobDecision :=
  match world.exception with
  | some status => .throw status
  | none =>
      if world.stopRequested 0 then .fail cancelledCompilationStatus
      else if ¬ world.retained then
        .fail ⟨.invalidArgument, "Lua optimized compilation has no retained prototype", 0⟩
      else if world.find.valid then checkOptimized parameterCount world world.find
      else
        match world.compile with
        | .error status => .fail status
        | .ok function =>
            if function.parameterTypes.length ≠ parameterCount then
              .fail ⟨.codeGenerationFailed,
                "Lua optimized signature differs from its baseline", 0⟩
            else if world.stopRequested 1 then .fail cancelledCompilationStatus
            else
              match world.publish function with
              | .error status => .fail status
              | .ok handle => checkOptimized parameterCount world handle

/-! ## The system -/

/-- Where a call of `schedule_if_hot` is. -/
inductive AttemptStage
  /-- `try_begin_optimization` has found the function hot. -/
  | beginning
  /-- Another attempt has the claim. -/
  | refused
  | claimed
  | submitting (generation : Nat)
  /-- There will be no task; the failure is not reported yet. -/
  | failing
  | failed
  | submitted (ticket : Nat)
  deriving DecidableEq, Repr

/-- Where the job of a task is. -/
inductive JobStage
  | pending
  | decided (decision : JobDecision)
  /-- The claim is settled, by a publication or a report. -/
  | settled (outcome : Outcome)
  | thrown (outcome : Outcome)

/-- The job has returned or thrown. -/
def JobStage.over : JobStage → Bool
  | .pending | .decided _ => false
  | .settled _ | .thrown _ => true

/-- A function, the scheduler, and the attempts and jobs between them. -/
structure OptimizationSystem where
  scheduler : SchedulerState
  code : TieredCode
  /-- The identity of the function in the scheduler. -/
  schedulingIdentity : List (BitVec 8)
  parameterCount : Nat
  tierable : Bool := true
  attempts : List AttemptStage := []
  /-- The jobs, by task. -/
  jobs : Nat → JobStage := fun _ => .pending
  /-- History: the attempt that has the claim. -/
  holder : Option Nat := none

/-- What a caller, a worker or the runtime does next. -/
inductive OptimizationEvent
  | begin
  /-- The rest of the operation that holds the publication mutex. -/
  | finish
  | lookup (attempt : Nat)
  /-- The submission; `available` is false without a scheduler, or when something throws. -/
  | submit (attempt estimatedBytes : Nat) (available allocates : Bool)
  | report (attempt : Nat)
  | decide (worker : Nat) (world : CompilationWorld)
  | reportJob (task : Nat)
  | promote (task : Nat) (allocates : Bool)
  /-- A step of the scheduler that no attempt and no job of this function makes. -/
  | scheduler (e : SchedulerEvent)
  /-- A step of the tiered code that no attempt and no job makes. -/
  | code (e : TieringEvent)

namespace OptimizationSystem

/-- Moves an attempt on. -/
def setAttempt (s : OptimizationSystem) (n : Nat) (stage : AttemptStage) : OptimizationSystem :=
  { s with attempts := s.attempts.set n stage }

/-- Moves a job on. -/
def setJob (s : OptimizationSystem) (h : Nat) (stage : JobStage) : OptimizationSystem :=
  { s with jobs := Function.update s.jobs h stage }

/-- Whether a task was submitted for this function. -/
def owns (s : OptimizationSystem) (h : Nat) : Bool :=
  (s.scheduler.tasks[h]?).any fun task => task.identity = s.schedulingIdentity

/-- `report_optimization_failure` up to its accounting. -/
def reportFailure (s : OptimizationSystem) : OptimizationSystem :=
  { s with code := s.code.reportOptimizationFailure.toOption.getD s.code, holder := none }

/-- The request that an attempt submits. -/
def request (s : OptimizationSystem) (generation estimatedBytes : Nat) : CompilationRequest where
  identity := s.schedulingIdentity
  generation := generation
  estimatedBytes := estimatedBytes

/-- The rest of the operation that holds the publication mutex. -/
def finish (s : OptimizationSystem) : Option OptimizationSystem := do
  let code ← s.code.finish
  match s.code.pending with
  | some (.takeClaim n) =>
      if s.code.hotness.takeClaim.1 then
        some { s.setAttempt n .claimed with code := code, holder := some n }
      else some { s.setAttempt n .refused with code := code }
  | some (.install _) => some { s with code := code }
  | _ => some { s with code := code, holder := none }

/-- The submission of an attempt. -/
def submit (s : OptimizationSystem) (n generation estimatedBytes : Nat)
    (available allocates : Bool) : OptimizationSystem :=
  if ¬ available ∨ s.scheduler.released then s.setAttempt n .failing
  else
    let (submission, scheduler) :=
      s.scheduler.submit (s.request generation estimatedBytes) none allocates
    match submission.bind (·.ticket) with
    | some ticket => { s with scheduler := scheduler }.setAttempt n (.submitted ticket)
    | none => { s with scheduler := scheduler }.setAttempt n .failing

/-- The publication of a job's code, and the status when it is rejected. -/
def promote (s : OptimizationSystem) (h : Nat) (handle : CodeHandle) (allocates : Bool) :
    Option OptimizationSystem := do
  let task ← s.scheduler.tasks[h]?
  if s.code.pending.isSome then none
  else
    match s.code.publishOptimized handle task.generation allocates with
    | .ok code => some { s.setJob h (.settled (.ok ())) with code := code, holder := none }
    | .error status => some (s.setJob h (.decided (.fail status)))

/-- Whether a step of the scheduler is one that others make: no submission for this function, and
no end of one of its jobs other than the one the job came to. -/
def allows (s : OptimizationSystem) : SchedulerEvent → Bool
  | .submit request _ _ => request.identity ≠ s.schedulingIdentity
  | .sample w outcome =>
      match s.scheduler.workers[w]? with
      | some (.running h) =>
          !s.owns h ||
            match s.jobs h, outcome with
            | .settled (.ok ()), .ok () => true
            | .settled (.error status), .error status' => decide (status = status')
            | .thrown (.error status), .error status' => decide (status = status')
            | _, _ => false
      | _ => true
  | _ => true

/-- Whether a step of the tiered code is one that others make. -/
def background : TieringEvent → Bool
  | .publishOptimized _ _ _ | .claim _ | .finish | .reportFailure => false
  | _ => true

/-- One atomic section of a caller, a worker or the runtime. -/
def step (s : OptimizationSystem) : OptimizationEvent → Option OptimizationSystem
  | .begin =>
      if ¬ s.tierable then some s
      else if s.code.pending.isSome then none
      else
        match s.code.beginClaim s.attempts.length with
        | none => some s
        | some code => some { s with code := code, attempts := s.attempts ++ [.beginning] }
  | .finish => s.finish
  | .lookup n =>
      match s.attempts[n]? with
      | some .claimed =>
          let baseline := s.code.snapshot
          if baseline.tier ≠ .baseline then some (s.setAttempt n .failing)
          else some (s.setAttempt n (.submitting baseline.generation))
      | _ => none
  | .submit n estimatedBytes available allocates =>
      match s.attempts[n]? with
      | some (.submitting generation) =>
          some (s.submit n generation estimatedBytes available allocates)
      | _ => none
  | .report n =>
      match s.attempts[n]? with
      | some .failing => some (s.reportFailure.setAttempt n .failed)
      | _ => none
  | .decide w world =>
      match s.scheduler.workers[w]? with
      | some (.running h) =>
          match s.owns h, s.jobs h with
          | true, .pending =>
              match compileOptimized s.parameterCount world with
              | .throw status => some (s.setJob h (.thrown (.error status)))
              | decision => some (s.setJob h (.decided decision))
          | _, _ => none
      | _ => none
  | .reportJob h =>
      match s.jobs h with
      | .decided (.fail status) => some (s.reportFailure.setJob h (.settled (.error status)))
      | _ => none
  | .promote h allocates =>
      match s.jobs h with
      | .decided (.promote handle) => s.promote h handle allocates
      | _ => none
  | .scheduler e =>
      if s.allows e then do
        let scheduler ← s.scheduler.step e
        some { s with scheduler := scheduler }
      else none
  | .code e =>
      if background e then do
        let code ← s.code.step e
        some { s with code := code }
      else none

end OptimizationSystem

end UniJit.Lua
