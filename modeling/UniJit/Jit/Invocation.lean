import UniJit.Ir.MemoryAccess
import UniJit.Jit.FastCalls
import UniJit.Runtime.AssumptionProtocol

/-!
# Managed invocation

`CompiledFunction::invoke` runs native code on an execution context. It takes one snapshot of the
fast-call targets, checks the bound objects, clears the exit record and the wake-up of the context,
binds the patch cells and the fast-call entries of the function, registers the context with the
assumptions, enters the native code, checks the assumptions again, reports an exit if the context
has one, restores the bindings and removes the registrations.

A helper of the native code may invoke another function on the same context, so a context has a
stack of invocations, the innermost first, and only the innermost makes a step. Invocations on
other contexts, the invalidation of assumptions and the binding of fast calls run concurrently. The
steps are the accesses to what threads share: the interrupt words and tokens (the protocol of
`AssumptionSystem`) and the tables of targets. The final check of the assumptions and the clearing
of a wake-up lock no mutex, so they may come between the requests of an invalidation. The record and
the bindings of a context belong to the thread that runs on it.

An invocation without a context uses a fresh one, when the function needs one; otherwise it touches
nothing of this and is left out. The native code of a function is arbitrary here, except that it
ends with a value or with an exit it records, and polls the interrupt word at safepoints.
-/

namespace UniJit.Jit

open UniJit.Ir UniJit.Lib UniJit.Runtime

/-! ## Contexts -/

/-- What `invoke` binds for the native code. -/
structure RuntimeBindings where
  /-- The function whose cells are bound. -/
  patchCells : Option Nat := none
  patchCellCount : Nat := 0
  fastCallEntries : List (Option NativeEntry) := []
  deriving DecidableEq, Repr

/-- How a run ended, as a context records it. -/
structure ExitRecord where
  reason : ExitReason := .none
  site : Nat := 0
  value : Word := 0
  captured : List Word := []
  deriving DecidableEq, Repr

/-- A context with what an invocation binds to it. -/
structure NativeContext where
  record : ExecutionContext := {}
  /-- The storage of captured values; `record.capturedValueCount` of them are there. -/
  capturedValues : Nat → Word := fun _ => 0
  bindings : RuntimeBindings := {}

namespace NativeContext

/-- What a context says of the last exit. -/
def exitRecord (x : NativeContext) : ExitRecord where
  reason := x.record.exitReason
  site := x.record.exitSite
  value := x.record.exitValue
  captured := (List.range x.record.capturedValueCount).map x.capturedValues

/-- Forgets the last exit. -/
def clearExit (x : NativeContext) : NativeContext := { x with record := x.record.clearExit }

/-- Records an exit. -/
def recordExit (x : NativeContext) (reason : ExitReason) (site : Nat) (value : Word) :
    NativeContext :=
  { x with record := x.record.recordExit reason site value }

/-- What native code writes when it exits. -/
def exitNative (x : NativeContext) (r : ExitRecord) : NativeContext :=
  { x.recordExit r.reason r.site r.value with
    record :=
      { x.record.recordExit r.reason r.site r.value with capturedValueCount := r.captured.length }
    capturedValues := fun i => r.captured.getD i (x.capturedValues i) }

@[simp] lemma exitRecord_clearExit (x : NativeContext) : x.clearExit.exitRecord = {} := rfl

@[simp] lemma exitRecord_recordExit (x : NativeContext) (reason : ExitReason) (site : Nat)
    (value : Word) : (x.recordExit reason site value).exitRecord =
      { reason := reason, site := site, value := value, captured := x.exitRecord.captured } := rfl

/-- An exit from native code is what the context says. -/
@[simp] lemma exitRecord_exitNative (x : NativeContext) (r : ExitRecord) :
    (x.exitNative r).exitRecord = r := by
  have hcaptured : (List.range r.captured.length).map
      (fun i => r.captured.getD i (x.capturedValues i)) = r.captured := by
    apply List.ext_getElem
    · simp
    · intro i _ hi
      simp [hi]
  simp only [exitRecord, exitNative, hcaptured]
  rfl

@[simp] lemma exitRecord_bindings (x : NativeContext) (b : RuntimeBindings) :
    { x with bindings := b }.exitRecord = x.exitRecord := rfl

end NativeContext

/-- `EvaluationResult`: a status and a value. -/
structure InvocationResult where
  status : Except Status Unit
  value : Word

/-- The result of an invocation, from what the context says. -/
def finishInvocation (value : Word) (context : ExecutionContext) : InvocationResult :=
  match context.exitReason with
  | .none => ⟨.ok (), value⟩
  | .safepoint =>
      ⟨.error ⟨.executionInterrupted, "execution interrupted at a safepoint", context.exitSite⟩,
        value⟩
  | .runtime =>
      ⟨.error ⟨.runtimeExit, "compiled execution requested a runtime exit", context.exitSite⟩,
        value⟩

/-- Whether a result says that the run exited. -/
def InvocationResult.ReportsExit (r : InvocationResult) : Prop :=
  ∃ status, r.status = .error status ∧
    (status.code = .runtimeExit ∨ status.code = .executionInterrupted)

/-! ## Invocations -/

/-- How far an invocation has come. -/
inductive InvocationStage
  /-- The arguments are checked and the snapshot is loaded. -/
  | loaded
  /-- The context is prepared; its registrations are made. -/
  | activating
  | native
  /-- The native code is over; the dependencies before `position` were still valid. -/
  | checking (value : Word) (position : Nat)
  /-- The result is there and the bindings are restored; the registrations are removed. -/
  | finished (result : InvocationResult)

/-- An invocation that has not returned. -/
structure Invocation where
  code : CompiledCode
  snapshot : Option FastCallTargetTable
  /-- The bindings to restore. -/
  previous : RuntimeBindings := {}
  /-- The activation of the assumptions, by its number in the protocol. -/
  activation : Option Nat := none
  stage : InvocationStage := .loaded
  /-- History: the exit of the native code of this invocation. -/
  exit : Option ExitRecord := none
  /-- History: the value that the native code of this invocation returned. -/
  returned : Option Word := none
  /-- History: the site of the own assumption that made this invocation exit. -/
  deoptimized : Option Nat := none
  /-- History: what the last inner invocation that got past its checks left in the context. -/
  inner : ExitRecord := {}

namespace Invocation

/-- The bindings during the run of an invocation, from those before it. -/
def install (v : Invocation) (b : RuntimeBindings) : RuntimeBindings where
  patchCells := if v.code.patchCells ≠ [] then some v.code.number else b.patchCells
  patchCellCount :=
    if v.code.patchCells ≠ [] then v.code.patchCells.length else b.patchCellCount
  fastCallEntries := match v.snapshot with
    | some t => t.entries
    | none => b.fastCallEntries

/-- The bindings that `invoke` saves, from those before it. -/
def save (v : Invocation) (b : RuntimeBindings) : RuntimeBindings where
  patchCells := if v.code.patchCells ≠ [] then b.patchCells else none
  patchCellCount := if v.code.patchCells ≠ [] then b.patchCellCount else 0
  fastCallEntries := if v.snapshot.isSome then b.fastCallEntries else []

/-- `restore_runtime_bindings`. -/
def restore (v : Invocation) (b : RuntimeBindings) : RuntimeBindings where
  patchCells := if v.code.patchCells ≠ [] then v.previous.patchCells else b.patchCells
  patchCellCount := if v.code.patchCells ≠ [] then v.previous.patchCellCount else b.patchCellCount
  fastCallEntries := if v.snapshot.isSome then v.previous.fastCallEntries else b.fastCallEntries

/-- What is saved and restored is what was there. -/
lemma restore_install {v : Invocation} {b : RuntimeBindings} (h : v.previous = v.save b) :
    v.restore (v.install b) = b := by
  unfold restore install
  rw [h]
  unfold save
  cases hsnapshot : v.snapshot with
  | none => by_cases hcells : v.code.patchCells = [] <;> simp [hcells]
  | some t => by_cases hcells : v.code.patchCells = [] <;> simp [hcells]

end Invocation

/-- The checks of `invoke` before it touches the context, and the load of the snapshot. -/
def beginInvocation (tables : FastCallTables) (f : CompiledCode) (argCount : Nat)
    (argsNull : Bool) : Except Status Invocation := do
  require (argCount = f.parameterCount)
    ⟨.invalidArgument, "argument count does not match compiled function signature", 0⟩
  require (¬ (argCount ≠ 0 ∧ argsNull))
    ⟨.invalidArgument, "argument storage is null for a non-empty signature", 0⟩
  require (f.hostCompatible)
    ⟨.codeGenerationFailed, "compiled function has no published entry point", 0⟩
  if f.fastCalls = [] then pure { code := f, snapshot := none }
  else
    let targets := tables.targets f
    require (¬ (targets.entries.length ≠ f.fastCalls.length ∨ none ∈ targets.entries))
      ⟨.unavailable, "compiled function has an unbound fast call target", 0⟩
    pure { code := f, snapshot := some targets }

/-! ## The system -/

/-- The contexts, their calls, and the protocols they take part in. -/
structure InvocationSystem where
  protocol : AssumptionSystem := { interrupts := fun _ => 0 }
  fastCalls : FastCallTables := {}
  contexts : ContextId → NativeContext := fun _ => {}
  /-- The invocations in progress on each context, the innermost first. -/
  calls : ContextId → List Invocation := fun _ => []

/-- One atomic section of an invocation or of something else. -/
inductive InvocationEvent
  | invoke (c : ContextId) (f : CompiledCode) (argCount : Nat) (argsNull : Bool)
  | prepare (c : ContextId)
  | activate (c : ContextId) (allocated : Bool)
  | enter (c : ContextId)
  | poll (c : ContextId)
  | exitNative (c : ContextId) (r : ExitRecord)
  | returnNative (c : ContextId) (value : Word)
  | check (c : ContextId)
  | release (c : ContextId)
  | leave (c : ContextId)
  | invalidate (token : Token)
  | requestWakeup (invalidation : Nat)
  | returnInvalidate (invalidation : Nat)
  | userInterrupt (c : ContextId) (requested : Bool)
  | fastCall (e : FastCallEvent)
  /-- The embedder binds other regions, objects and oracles. -/
  | bind (c : ContextId) (regions : List MemoryRegion) (objects : List TrustedObject)
      (oracles : List (Option RuntimeHelper))

/-- `clear_deoptimization_wakeup`. -/
def clearDeoptimizationWakeup (p : AssumptionSystem) (c : ContextId) : AssumptionSystem :=
  { p with interrupts := Function.update p.interrupts c (p.interrupts c &&& ~~~wakeupBit) }

namespace InvocationSystem

/-- Exchanges a context. -/
def setContext (s : InvocationSystem) (c : ContextId) (x : NativeContext) : InvocationSystem :=
  { s with contexts := Function.update s.contexts c x }

/-- Exchanges the calls of a context. -/
def setStack (s : InvocationSystem) (c : ContextId) (stack : List Invocation) :
    InvocationSystem :=
  { s with calls := Function.update s.calls c stack }

/-- A step of the innermost invocation of a context. -/
def atTop (s : InvocationSystem) (c : ContextId)
    (change : Invocation → List Invocation → Option InvocationSystem) :
    Option InvocationSystem :=
  match s.calls c with
  | [] => none
  | v :: rest => change v rest

/-- A step of the protocol for an invocation that has an activation. -/
def protocolStep (p : AssumptionSystem) (activation : Option Nat) (e : Nat → AssumptionEvent) :
    Option AssumptionSystem :=
  match activation with
  | none => some p
  | some i => p.step (e i)

/-- Compute the result, restore the bindings and begin to remove the registrations. -/
def finish (s : InvocationSystem) (c : ContextId) (v : Invocation) (rest : List Invocation)
    (x : NativeContext) (result : InvocationResult) : Option InvocationSystem := do
  let p ← protocolStep s.protocol v.activation .release
  some ({ s with protocol := p }.setContext c { x with bindings := v.restore x.bindings }
    |>.setStack c ({ v with stage := .finished result } :: rest))

/-- Whether an invocation may begin on a context: none is in progress, or the innermost runs
native code, a helper of which makes the call. -/
def mayInvoke (s : InvocationSystem) (c : ContextId) : Bool :=
  match s.calls c with
  | [] => true
  | v :: _ => v.stage matches .native

/-- The checks of the objects, and what `invoke` does to the context before the activation. -/
def prepare (s : InvocationSystem) (c : ContextId) (v : Invocation) (rest : List Invocation) :
    Option InvocationSystem :=
  let x := s.contexts c
  match validateTrustedObjectBindings v.code.trustedObjects v.code.trustedObjectWritable
      (some x.record) with
  | .error _ => some (s.setStack c rest)
  | .ok () =>
      let v := { v with previous := v.save x.bindings }
      let s := s.setContext c { x.clearExit with bindings := v.install x.bindings }
      let p := clearDeoptimizationWakeup s.protocol c
      if v.code.assumptions.dependencies = [] then
        some ({ s with protocol := p }.setStack c ({ v with stage := .native } :: rest))
      else do
        let p ← p.step (.activate v.code.assumptions c)
        some ({ s with protocol := p }.setStack c ({ v with
          activation := some s.protocol.activations.length, stage := .activating } :: rest))

/-- What `invoke` does when the activation is constructed. -/
def enter (s : InvocationSystem) (c : ContextId) (v : Invocation) (rest : List Invocation)
    (i : Nat) (a : AssumptionActivation) : Option InvocationSystem :=
  let x := s.contexts c
  match a.status with
  | .error status => s.finish c v rest x ⟨.error status, 0⟩
  | .ok () =>
      match a.invalidDependency with
      | some k => do
          let d ← a.set.dependencies[k]?
          let x := x.recordExit .runtime d.site 0
          s.finish c { v with deoptimized := some d.site } rest x (finishInvocation 0 x.record)
      | none => do
          let p ← s.protocol.step (.enter i)
          some ({ s with protocol := p }.setStack c ({ v with stage := .native } :: rest))

/-- One turn of `first_invalid` after the native code, and what follows its end. -/
def check (s : InvocationSystem) (c : ContextId) (v : Invocation) (rest : List Invocation)
    (value : Word) (position : Nat) : Option InvocationSystem :=
  let x := s.contexts c
  match v.code.assumptions.dependencies[position]? with
  | none => s.finish c v rest x (finishInvocation value x.record)
  | some d =>
      if (s.protocol.assumptions d.assumption).valid then
        some (s.setStack c ({ v with stage := .checking value (position + 1) } :: rest))
      else
        let x := x.recordExit .runtime d.site 0
        { s with protocol := clearDeoptimizationWakeup s.protocol c }.finish c
          { v with deoptimized := some d.site } rest x (finishInvocation 0 x.record)

/-- The end of an invocation: the outer one, if there is one, goes on. -/
def leave (s : InvocationSystem) (c : ContextId) (rest : List Invocation) : InvocationSystem :=
  match rest with
  | [] => s.setStack c []
  | outer :: rest =>
      s.setStack c ({ outer with inner := (s.contexts c).exitRecord } :: rest)

/-- What an atomic section does, when it is its turn. -/
def step (s : InvocationSystem) : InvocationEvent → Option InvocationSystem
  | .invoke c f argCount argsNull =>
      if s.mayInvoke c then
        match beginInvocation s.fastCalls f argCount argsNull with
        | .error _ => some s
        | .ok v => some (s.setStack c (v :: s.calls c))
      else none
  | .prepare c => s.atTop c fun v rest =>
      match v.stage with
      | .loaded => s.prepare c v rest
      | _ => none
  | .activate c allocated => s.atTop c fun v _ =>
      match v.stage, v.activation with
      | .activating, some i => do
          let p ← s.protocol.step (.construct i allocated)
          some { s with protocol := p }
      | _, _ => none
  | .enter c => s.atTop c fun v rest =>
      match v.stage, v.activation with
      | .activating, some i => do
          let a ← s.protocol.activations[i]?
          if a.stage = .constructed then s.enter c v rest i a else none
      | _, _ => none
  | .poll c => s.atTop c fun v _ =>
      match v.stage with
      | .native =>
          let x := s.contexts c
          some (s.setContext c { x with record := x.record.recordSafepointPoll })
      | _ => none
  | .exitNative c r => s.atTop c fun v rest =>
      match v.stage with
      | .native => do
          let p ← protocolStep s.protocol v.activation .leave
          if r.reason ≠ .none ∧ (r.reason = .safepoint → s.protocol.interrupts c ≠ 0) then
            some ({ s with protocol := p }.setContext c ((s.contexts c).exitNative r)
              |>.setStack c ({ v with exit := some r, stage := .checking 0 0 } :: rest))
          else none
      | _ => none
  | .returnNative c value => s.atTop c fun v rest =>
      match v.stage with
      | .native => do
          let p ← protocolStep s.protocol v.activation .leave
          some ({ s with protocol := p }.setStack c
            ({ v with returned := some value, stage := .checking value 0 } :: rest))
      | _ => none
  | .check c => s.atTop c fun v rest =>
      match v.stage with
      | .checking value position => s.check c v rest value position
      | _ => none
  | .release c => s.atTop c fun v _ =>
      match v.stage, v.activation with
      | .finished _, some i => do
          let p ← s.protocol.step (.unsubscribe i)
          some { s with protocol := p }
      | _, _ => none
  | .leave c => s.atTop c fun v rest =>
      match v.stage with
      | .finished _ =>
          if v.activation.all fun i =>
              (s.protocol.activations[i]?).all fun a => a.stage = .released then
            some (s.leave c rest)
          else none
      | _ => none
  | .invalidate token => do
      let p ← s.protocol.step (.invalidate token)
      some { s with protocol := p }
  | .requestWakeup j => do
      let p ← s.protocol.step (.requestWakeup j)
      some { s with protocol := p }
  | .returnInvalidate j => do
      let p ← s.protocol.step (.returnInvalidate j)
      some { s with protocol := p }
  | .userInterrupt c requested => do
      let p ← s.protocol.step (.userInterrupt c requested)
      some { s with protocol := p }
  | .fastCall e => do
      let t ← s.fastCalls.step e
      some { s with fastCalls := t }
  | .bind c regions objects oracles =>
      let x := s.contexts c
      some (s.setContext c { x with record := { x.record with
        memoryRegions := regions, trustedObjects := objects, fastCallOracles := oracles } })

end InvocationSystem

end UniJit.Jit
