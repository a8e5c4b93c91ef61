import UniJit.Jit.Invocation

/-!
# What a step of an invocation can do

Every step of the system begins or ends an invocation, is a turn of the innermost invocation of one
context, or leaves the invocations alone. A turn changes that invocation, its context and the
protocol; the facts about all runs are proved from these turns.
-/

namespace UniJit.Jit

open UniJit.Ir UniJit.Lib UniJit.Runtime

namespace InvocationSystem

/-- The turns of the innermost invocation `v` of a context `c`: the event, and what becomes of the
invocation, the context and the protocol. -/
inductive Turn (s : InvocationSystem) (c : ContextId) (v : Invocation) :
    InvocationEvent → Invocation → NativeContext → AssumptionSystem → Prop
  | prepare (stage : v.stage = .loaded)
      (objects : validateTrustedObjectBindings v.code.trustedObjects v.code.trustedObjectWritable
        (some (s.contexts c).record) = .ok ())
      (free : v.code.assumptions.dependencies = []) :
      Turn s c v (.prepare c)
        { v with previous := v.save (s.contexts c).bindings, stage := .native }
        { (s.contexts c).clearExit with bindings := v.install (s.contexts c).bindings }
        (clearDeoptimizationWakeup s.protocol c)
  | activate {p : AssumptionSystem} (stage : v.stage = .loaded)
      (objects : validateTrustedObjectBindings v.code.trustedObjects v.code.trustedObjectWritable
        (some (s.contexts c).record) = .ok ())
      (protocol : (clearDeoptimizationWakeup s.protocol c).step
        (.activate v.code.assumptions c) = some p) :
      Turn s c v (.prepare c)
        { v with
          previous := v.save (s.contexts c).bindings
          activation := some s.protocol.activations.length
          stage := .activating }
        { (s.contexts c).clearExit with bindings := v.install (s.contexts c).bindings } p
  | construct {i : Nat} {allocated : Bool} {p : AssumptionSystem} (stage : v.stage = .activating)
      (activation : v.activation = some i)
      (protocol : s.protocol.step (.construct i allocated) = some p) :
      Turn s c v (.activate c allocated) v (s.contexts c) p
  | exhaust {i : Nat} {a : AssumptionActivation} {status : Status} {p : AssumptionSystem}
      (stage : v.stage = .activating) (activation : v.activation = some i)
      (found : s.protocol.activations[i]? = some a) (failed : a.status = .error status)
      (protocol : s.protocol.step (.release i) = some p) :
      Turn s c v (.enter c) { v with stage := .finished ⟨.error status, 0⟩ }
        { s.contexts c with bindings := v.restore (s.contexts c).bindings } p
  | reject {i k : Nat} {a : AssumptionActivation} {d : AssumptionDependency} {p : AssumptionSystem}
      (stage : v.stage = .activating) (activation : v.activation = some i)
      (found : s.protocol.activations[i]? = some a) (invalid : a.invalidDependency = some k)
      (dependency : a.set.dependencies[k]? = some d)
      (protocol : s.protocol.step (.release i) = some p) :
      Turn s c v (.enter c)
        { v with
          deoptimized := some d.site
          stage := .finished
            (finishInvocation 0 ((s.contexts c).recordExit .runtime d.site 0).record) }
        { (s.contexts c).recordExit .runtime d.site 0 with
          bindings := v.restore (s.contexts c).bindings } p
  | enter {i : Nat} {p : AssumptionSystem} (stage : v.stage = .activating)
      (activation : v.activation = some i) (protocol : s.protocol.step (.enter i) = some p) :
      Turn s c v (.enter c) { v with stage := .native } (s.contexts c) p
  | poll (stage : v.stage = .native) :
      Turn s c v (.poll c) v
        { s.contexts c with record := (s.contexts c).record.recordSafepointPoll } s.protocol
  | exitNative {r : ExitRecord} {p : AssumptionSystem} (stage : v.stage = .native)
      (reason : r.reason ≠ .none)
      (protocol : protocolStep s.protocol v.activation .leave = some p) :
      Turn s c v (.exitNative c r) { v with exit := some r, stage := .checking 0 0 }
        ((s.contexts c).exitNative r) p
  | returnNative {value : Word} {p : AssumptionSystem} (stage : v.stage = .native)
      (protocol : protocolStep s.protocol v.activation .leave = some p) :
      Turn s c v (.returnNative c value)
        { v with returned := some value, stage := .checking value 0 } (s.contexts c) p
  | check {value : Word} {position : Nat} {d : AssumptionDependency}
      (stage : v.stage = .checking value position)
      (dependency : v.code.assumptions.dependencies[position]? = some d)
      (valid : (s.protocol.assumptions d.assumption).valid = true) :
      Turn s c v (.check c) { v with stage := .checking value (position + 1) } (s.contexts c)
        s.protocol
  | deoptimize {value : Word} {position : Nat} {d : AssumptionDependency} {p : AssumptionSystem}
      (stage : v.stage = .checking value position)
      (dependency : v.code.assumptions.dependencies[position]? = some d)
      (invalid : (s.protocol.assumptions d.assumption).valid = false)
      (protocol : protocolStep (clearDeoptimizationWakeup s.protocol c) v.activation .release =
        some p) :
      Turn s c v (.check c)
        { v with
          deoptimized := some d.site
          stage := .finished
            (finishInvocation 0 ((s.contexts c).recordExit .runtime d.site 0).record) }
        { (s.contexts c).recordExit .runtime d.site 0 with
          bindings := v.restore (s.contexts c).bindings } p
  | complete {value : Word} {position : Nat} {p : AssumptionSystem}
      (stage : v.stage = .checking value position)
      (last : v.code.assumptions.dependencies[position]? = none)
      (protocol : protocolStep s.protocol v.activation .release = some p) :
      Turn s c v (.check c)
        { v with stage := .finished (finishInvocation value (s.contexts c).record) }
        { s.contexts c with bindings := v.restore (s.contexts c).bindings } p
  | release {i : Nat} {result : InvocationResult} {p : AssumptionSystem}
      (stage : v.stage = .finished result) (activation : v.activation = some i)
      (protocol : s.protocol.step (.unsubscribe i) = some p) :
      Turn s c v (.release c) v (s.contexts c) p

/-- The steps of the protocol that no invocation makes. -/
inductive Outside (p : AssumptionSystem) : InvocationEvent → AssumptionSystem → Prop
  | invalidate {token : Token} {p' : AssumptionSystem} (step : p.step (.invalidate token) = some p') :
      Outside p (.invalidate token) p'
  | requested {j : Nat} {p' : AssumptionSystem} (step : p.step (.requestWakeup j) = some p') :
      Outside p (.requestWakeup j) p'
  | returned {j : Nat} {p' : AssumptionSystem} (step : p.step (.returnInvalidate j) = some p') :
      Outside p (.returnInvalidate j) p'
  | userInterrupt (c : ContextId) (requested : Bool) :
      Outside p (.userInterrupt c requested) (p.setUserInterrupt c requested)

/-- What a step may do, case by case. -/
inductive Move (s : InvocationSystem) : InvocationEvent → InvocationSystem → Prop
  | rejected (c : ContextId) (f : CompiledCode) (argCount : Nat) (argsNull : Bool) :
      Move s (.invoke c f argCount argsNull) s
  | invoke {c : ContextId} {f : CompiledCode} {argCount : Nat} {argsNull : Bool} {v : Invocation}
      (idle : s.mayInvoke c = true)
      (begun : beginInvocation s.fastCalls f argCount argsNull = .ok v) :
      Move s (.invoke c f argCount argsNull) (s.setStack c (v :: s.calls c))
  | drop {c : ContextId} {v : Invocation} {rest : List Invocation} (calls : s.calls c = v :: rest)
      (stage : v.stage = .loaded) : Move s (.prepare c) (s.setStack c rest)
  | turn {c : ContextId} {v v' : Invocation} {rest : List Invocation} {e : InvocationEvent}
      {x : NativeContext} {p : AssumptionSystem} (calls : s.calls c = v :: rest)
      (turn : Turn s c v e v' x p) :
      Move s e (({ s with protocol := p }.setContext c x).setStack c (v' :: rest))
  | leave {c : ContextId} {v : Invocation} {rest : List Invocation} {result : InvocationResult}
      (calls : s.calls c = v :: rest) (stage : v.stage = .finished result)
      (released : ∀ i a, v.activation = some i → s.protocol.activations[i]? = some a →
        a.stage = .released) :
      Move s (.leave c) (s.leave c rest)
  | outside {e : InvocationEvent} {p : AssumptionSystem} (outside : Outside s.protocol e p) :
      Move s e { s with protocol := p }
  | fastCall {e : FastCallEvent} {t : FastCallTables} (step : s.fastCalls.step e = some t) :
      Move s (.fastCall e) { s with fastCalls := t }
  | bind (c : ContextId) (regions : List MemoryRegion) (objects : List TrustedObject)
      (oracles : List (Option RuntimeHelper)) :
      Move s (.bind c regions objects oracles)
        (s.setContext c { s.contexts c with record := { (s.contexts c).record with
          memoryRegions := regions, trustedObjects := objects, fastCallOracles := oracles } })

variable {s s' : InvocationSystem} {e : InvocationEvent}

/-- A change at the top is one of the innermost call. -/
lemma atTop_eq_some {c : ContextId}
    {change : Invocation → List Invocation → Option InvocationSystem} :
    s.atTop c change = some s' ↔ ∃ v rest, s.calls c = v :: rest ∧ change v rest = some s' := by
  unfold atTop
  cases s.calls c with
  | nil => simp
  | cons v rest => simp

/-- A turn that leaves the context as it is. -/
lemma Move.turn_context {c : ContextId} {v v' : Invocation} {rest : List Invocation}
    {p : AssumptionSystem} (calls : s.calls c = v :: rest)
    (turn : Turn s c v e v' (s.contexts c) p) :
    Move s e ({ s with protocol := p }.setStack c (v' :: rest)) := by
  have hmove := Move.turn calls turn
  simpa [setContext] using hmove

/-- A turn that leaves the invocation and its context as they are. -/
lemma Move.turn_protocol {c : ContextId} {v : Invocation} {rest : List Invocation}
    {p : AssumptionSystem} (calls : s.calls c = v :: rest)
    (turn : Turn s c v e v (s.contexts c) p) : Move s e { s with protocol := p } := by
  have hmove := Move.turn_context calls turn
  rw [← calls] at hmove
  simpa [setStack] using hmove

/-- What finishing an invocation takes. -/
lemma finish_eq_some {c : ContextId} {v : Invocation} {rest : List Invocation} {x : NativeContext}
    {result : InvocationResult} :
    s.finish c v rest x result = some s' ↔
      ∃ p, protocolStep s.protocol v.activation .release = some p ∧
        (({ s with protocol := p }.setContext c
          { x with bindings := v.restore x.bindings }).setStack c
            ({ v with stage := .finished result } :: rest)) = s' := by
  simp [finish, Option.bind_eq_some_iff]

/-- Preparing the context is a move. -/
lemma prepare_move {c : ContextId} {v : Invocation} {rest : List Invocation}
    (hcalls : s.calls c = v :: rest) (hstage : v.stage = .loaded)
    (hprepare : s.prepare c v rest = some s') : Move s (.prepare c) s' := by
  unfold prepare at hprepare
  dsimp only at hprepare
  split at hprepare
  next =>
    obtain rfl := Option.some.inj hprepare
    exact .drop hcalls hstage
  next hobjects =>
    split_ifs at hprepare with hfree
    · obtain rfl := Option.some.inj hprepare
      exact .turn hcalls (.prepare hstage hobjects hfree)
    · obtain ⟨p, hp, heq⟩ := Option.bind_eq_some_iff.mp hprepare
      obtain rfl := Option.some.inj heq
      exact .turn hcalls (.activate hstage hobjects hp)

/-- Entering native code is a move. -/
lemma enter_move {c : ContextId} {v : Invocation} {rest : List Invocation} {i : Nat}
    {a : AssumptionActivation} (hcalls : s.calls c = v :: rest) (hstage : v.stage = .activating)
    (hactivation : v.activation = some i) (hfound : s.protocol.activations[i]? = some a)
    (henter : s.enter c v rest i a = some s') : Move s (.enter c) s' := by
  unfold enter at henter
  dsimp only at henter
  split at henter
  next status hstatus =>
    obtain ⟨p, hp, rfl⟩ := finish_eq_some.mp henter
    rw [hactivation] at hp
    exact .turn hcalls (.exhaust hstage hactivation hfound hstatus hp)
  next hstatus =>
    split at henter
    next k hinvalid =>
      obtain ⟨d, hd, hfinish⟩ := Option.bind_eq_some_iff.mp henter
      obtain ⟨p, hp, rfl⟩ := finish_eq_some.mp hfinish
      have hrelease : protocolStep s.protocol v.activation .release = some p := hp
      rw [hactivation] at hrelease
      exact .turn hcalls (.reject hstage hactivation hfound hinvalid hd hrelease)
    next hvalid =>
      obtain ⟨p, hp, heq⟩ := Option.bind_eq_some_iff.mp henter
      obtain rfl := Option.some.inj heq
      exact .turn_context hcalls (.enter hstage hactivation hp)

/-- A check of the final test is a move. -/
lemma check_move {c : ContextId} {v : Invocation} {rest : List Invocation} {value : Word}
    {position : Nat} (hcalls : s.calls c = v :: rest) (hstage : v.stage = .checking value position)
    (hcheck : s.check c v rest value position = some s') : Move s (.check c) s' := by
  unfold check at hcheck
  dsimp only at hcheck
  split at hcheck
  next hlast =>
    obtain ⟨p, hp, rfl⟩ := finish_eq_some.mp hcheck
    exact .turn hcalls (.complete hstage hlast hp)
  next d hd =>
    split_ifs at hcheck with hvalid
    · obtain rfl := Option.some.inj hcheck
      exact .turn_context hcalls (.check hstage hd hvalid)
    · obtain ⟨p, hp, rfl⟩ := finish_eq_some.mp hcheck
      exact .turn hcalls (.deoptimize hstage hd (by simpa using hvalid) hp)

/-- **Step.** Every step is one of the moves. -/
lemma step_move (hstep : s.step e = some s') : Move s e s' := by
  cases e with
  | invoke c f argCount argsNull =>
      simp only [step, Option.ite_none_right_eq_some] at hstep
      obtain ⟨hidle, hbegin⟩ := hstep
      split at hbegin
      · obtain rfl := Option.some.inj hbegin
        exact .rejected c f argCount argsNull
      next v hv =>
        obtain rfl := Option.some.inj hbegin
        exact .invoke hidle hv
  | prepare c =>
      obtain ⟨v, rest, hcalls, hchange⟩ := atTop_eq_some.mp hstep
      split at hchange
      next hstage => exact prepare_move hcalls hstage hchange
      next => simp at hchange
  | activate c allocated =>
      obtain ⟨v, rest, hcalls, hchange⟩ := atTop_eq_some.mp hstep
      split at hchange
      next i hstage hactivation =>
        obtain ⟨p, hp, heq⟩ := Option.bind_eq_some_iff.mp hchange
        obtain rfl := Option.some.inj heq
        exact .turn_protocol hcalls (.construct hstage hactivation hp)
      next => simp at hchange
  | enter c =>
      obtain ⟨v, rest, hcalls, hchange⟩ := atTop_eq_some.mp hstep
      split at hchange
      next i hstage hactivation =>
        obtain ⟨a, hfound, hcond⟩ := Option.bind_eq_some_iff.mp hchange
        simp only [Option.ite_none_right_eq_some] at hcond
        exact enter_move hcalls hstage hactivation hfound hcond.2
      next => simp at hchange
  | poll c =>
      obtain ⟨v, rest, hcalls, hchange⟩ := atTop_eq_some.mp hstep
      split at hchange
      next hstage =>
        obtain rfl := Option.some.inj hchange
        have hmove := Move.turn hcalls (.poll hstage)
        rw [← hcalls] at hmove
        simpa [setStack, setContext] using hmove
      next => simp at hchange
  | exitNative c r =>
      obtain ⟨v, rest, hcalls, hchange⟩ := atTop_eq_some.mp hstep
      split at hchange
      next hstage =>
        obtain ⟨p, hp, hcond⟩ := Option.bind_eq_some_iff.mp hchange
        simp only [Option.ite_none_right_eq_some, Option.some.injEq] at hcond
        obtain ⟨⟨hreason, -⟩, rfl⟩ := hcond
        exact .turn hcalls (.exitNative hstage hreason hp)
      next => simp at hchange
  | returnNative c value =>
      obtain ⟨v, rest, hcalls, hchange⟩ := atTop_eq_some.mp hstep
      split at hchange
      next hstage =>
        obtain ⟨p, hp, heq⟩ := Option.bind_eq_some_iff.mp hchange
        obtain rfl := Option.some.inj heq
        exact .turn_context hcalls (.returnNative hstage hp)
      next => simp at hchange
  | check c =>
      obtain ⟨v, rest, hcalls, hchange⟩ := atTop_eq_some.mp hstep
      split at hchange
      next value position hstage => exact check_move hcalls hstage hchange
      next => simp at hchange
  | release c =>
      obtain ⟨v, rest, hcalls, hchange⟩ := atTop_eq_some.mp hstep
      split at hchange
      next result i hstage hactivation =>
        obtain ⟨p, hp, heq⟩ := Option.bind_eq_some_iff.mp hchange
        obtain rfl := Option.some.inj heq
        exact .turn_protocol hcalls (.release hstage hactivation hp)
      next => simp at hchange
  | leave c =>
      obtain ⟨v, rest, hcalls, hchange⟩ := atTop_eq_some.mp hstep
      split at hchange
      next result hstage =>
        simp only [Option.ite_none_right_eq_some, Option.some.injEq] at hchange
        obtain ⟨hreleased, rfl⟩ := hchange
        refine .leave hcalls hstage ?_
        intro i a hi ha
        simpa [hi, ha] using hreleased
      next => simp at hchange
  | invalidate token =>
      obtain ⟨p, hp, heq⟩ := Option.bind_eq_some_iff.mp hstep
      obtain rfl := Option.some.inj heq
      exact .outside (.invalidate hp)
  | requestWakeup j =>
      obtain ⟨p, hp, heq⟩ := Option.bind_eq_some_iff.mp hstep
      obtain rfl := Option.some.inj heq
      exact .outside (.requested hp)
  | returnInvalidate j =>
      obtain ⟨p, hp, heq⟩ := Option.bind_eq_some_iff.mp hstep
      obtain rfl := Option.some.inj heq
      exact .outside (.returned hp)
  | userInterrupt c requested =>
      obtain rfl := Option.some.inj hstep
      exact .outside (.userInterrupt c requested)
  | fastCall e =>
      obtain ⟨t, ht, heq⟩ := Option.bind_eq_some_iff.mp hstep
      obtain rfl := Option.some.inj heq
      exact .fastCall ht
  | bind c regions objects oracles =>
      obtain rfl := Option.some.inj hstep
      exact .bind c regions objects oracles

/-- The invocation that `invoke` begins, and the snapshot it takes. -/
lemma beginInvocation_eq_ok {tables : FastCallTables} {f : CompiledCode} {argCount : Nat}
    {argsNull : Bool} {v : Invocation}
    (h : beginInvocation tables f argCount argsNull = .ok v) :
    (f.fastCalls = [] ∧ v = { code := f, snapshot := none }) ∨
      (f.fastCalls ≠ [] ∧ none ∉ (tables.targets f).entries ∧
        v = { code := f, snapshot := some (tables.targets f) }) := by
  simp only [beginInvocation, bind_eq_ok, require_eq_ok] at h
  obtain ⟨_, -, _, -, _, -, hrest⟩ := h
  split_ifs at hrest with hcalls
  · exact .inl ⟨hcalls, pure_eq_ok.mp hrest⟩
  · simp only [bind_eq_ok, require_eq_ok, pure_eq_ok, not_or] at hrest
    obtain ⟨_, ⟨-, hbound⟩, rfl⟩ := hrest
    exact .inr ⟨hcalls, hbound, rfl⟩

/-! ## The protocol -/

/-- Clearing a wake-up keeps the protocol registered. -/
lemma registered_clearDeoptimizationWakeup {p : AssumptionSystem} (h : p.Registered)
    (c : ContextId) : (clearDeoptimizationWakeup p c).Registered :=
  h.withInterrupts _

/-- A step on an invocation's behalf keeps the protocol registered. -/
lemma registered_protocolStep {p p' : AssumptionSystem} (h : p.Registered)
    {activation : Option Nat} {e : Nat → AssumptionEvent}
    (hstep : protocolStep p activation e = some p') : p'.Registered := by
  cases activation with
  | none =>
      obtain rfl := Option.some.inj hstep
      exact h
  | some i => exact h.next hstep

/-- What an invocation does to the protocol are steps of the protocol. -/
lemma Turn.registered {c : ContextId} {v v' : Invocation} {x : NativeContext}
    {p : AssumptionSystem} (h : Turn s c v e v' x p) (hregistered : s.protocol.Registered) :
    p.Registered := by
  have hcleared := registered_clearDeoptimizationWakeup hregistered c
  cases h with
  | prepare stage objects free => exact hcleared
  | activate stage objects protocol => exact hcleared.next protocol
  | construct stage activation protocol => exact hregistered.next protocol
  | exhaust stage activation found failed protocol => exact hregistered.next protocol
  | reject stage activation found invalid dependency protocol => exact hregistered.next protocol
  | enter stage activation protocol => exact hregistered.next protocol
  | poll stage => exact hregistered
  | exitNative stage reason protocol => exact registered_protocolStep hregistered protocol
  | returnNative stage protocol => exact registered_protocolStep hregistered protocol
  | check stage dependency valid => exact hregistered
  | deoptimize stage dependency invalid protocol => exact registered_protocolStep hcleared protocol
  | complete stage last protocol => exact registered_protocolStep hregistered protocol
  | release stage activation protocol => exact hregistered.next protocol

/-- What happens outside keeps the protocol registered. -/
lemma Outside.registered {p p' : AssumptionSystem} (h : Outside p e p')
    (hregistered : p.Registered) :
    p'.Registered := by
  cases h with
  | invalidate step => exact hregistered.next step
  | requested step => exact hregistered.next step
  | returned step => exact hregistered.next step
  | userInterrupt c requested => exact hregistered.withInterrupts _

/-- **Step.** The system keeps the invariant of the protocol. -/
lemma Move.registered (h : Move s e s') (hregistered : s.protocol.Registered) :
    s'.protocol.Registered := by
  cases h with
  | rejected c f argCount argsNull => exact hregistered
  | invoke idle begun => exact hregistered
  | drop calls stage => exact hregistered
  | turn calls turn => exact turn.registered hregistered
  | @leave c v rest result calls stage released => cases rest <;> exact hregistered
  | outside outside => exact outside.registered hregistered
  | fastCall step => exact hregistered
  | bind c regions objects oracles => exact hregistered

end InvocationSystem

end UniJit.Jit
