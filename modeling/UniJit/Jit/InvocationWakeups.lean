import UniJit.Jit.InvocationActivations

/-!
# Wake-ups of invocations

An invalidation closes the token and then wakes the contexts that are registered with it, one after
the other: it sets one bit in the interrupt word of each, which the safepoints of the native code
poll. The bit belongs to the context and not to one invocation. `invoke` clears it when it prepares
the context and when it finds one of its own assumptions invalid, so an inner invocation can clear
the wake-up of an outer one. And the request may come too late: after the last check of the
invocation, which has found the token valid, or between its check, which has found the token closed
and has cleared the bit already, and the end of its registration. Such a wake-up stays behind.

The theorem of this module names the steps that do this: in every run without them, the bit is set
exactly while an invocation on the context has been asked to stop and has not noticed.
-/

namespace UniJit.Runtime.AssumptionSystem

/-! ## Requests -/

variable {p p' : AssumptionSystem} {c : ContextId} {token : Token}

/-- An invalidation of the token has requested the wake-up of the context. -/
def RequestMade (p : AssumptionSystem) (c : ContextId) (token : Token) : Prop :=
  ∃ inv ∈ p.invalidations, inv.token = token ∧ c ∈ inv.requested

lemma requestMade_congr (h : p'.invalidations = p.invalidations) :
    p'.RequestMade c token ↔ p.RequestMade c token := by
  simp only [RequestMade, h]

/-- A request is made for closed tokens only. -/
lemma Registered.closed_of_requestMade (h : p.Registered) (hmade : p.RequestMade c token) :
    (p.assumptions token).valid = false := by
  obtain ⟨inv, hinv, rfl, -⟩ := hmade
  exact h.closed inv hinv

/-- Closing a token makes no request. -/
lemma requestMade_invalidate {closed : Token} :
    (p.invalidate closed).RequestMade c token ↔ p.RequestMade c token := by
  unfold RequestMade invalidate
  simp

/-- Which requests have been made after one more. -/
lemma requestMade_requestWakeup {j : Nat} {inv : Invalidation} {asked : ContextId}
    {rest : List ContextId} (hfound : p.invalidations[j]? = some inv) :
    (p.requestWakeup j inv asked rest).RequestMade c token ↔
      p.RequestMade c token ∨ c = asked ∧ token = inv.token := by
  have hinv := List.mem_of_getElem? hfound
  refine (Lib.exists_mem_set_iff hfound ?_).trans ?_
  · rintro ⟨htoken, hc⟩
    exact ⟨htoken, List.mem_append_left _ hc⟩
  · simp only [List.mem_append, List.mem_singleton]
    constructor
    · rintro (⟨rfl, hc | rfl⟩ | hmade)
      · exact .inl ⟨inv, hinv, rfl, hc⟩
      · exact .inr ⟨rfl, rfl⟩
      · exact .inl hmade
    · rintro (hmade | ⟨rfl, rfl⟩)
      · exact .inr hmade
      · exact .inl ⟨rfl, .inr rfl⟩

/-- An invalidation that returns makes no request. -/
lemma requestMade_returned {j : Nat} {inv : Invalidation}
    (hfound : p.invalidations[j]? = some inv) :
    RequestMade { p with invalidations := p.invalidations.set j { inv with returned := true } } c
      token ↔ p.RequestMade c token := by
  have hset := Lib.exists_mem_set_iff (b := { inv with returned := true })
    (P := fun inv => inv.token = token ∧ c ∈ inv.requested) hfound fun h => h
  exact hset.trans (or_iff_right_of_imp fun h => ⟨inv, List.mem_of_getElem? hfound, h⟩)

/-- Somebody who is registered with a closed token is asked, or will be. -/
lemma Registered.requestMade_or_pending (h : p.Registered)
    (hclosed : (p.assumptions token).valid = false)
    (hactive : c ∈ (p.assumptions token).activeContexts) :
    p.RequestMade c token ∨ ∃ inv ∈ p.invalidations, inv.token = token ∧ c ∈ inv.pending := by
  obtain ⟨inv, hinv, rfl⟩ := h.invalidated token hclosed
  rcases h.covered inv hinv c hactive with hrequested | hpending
  · exact .inl ⟨inv, hinv, rfl, hrequested⟩
  · exact .inr ⟨inv, hinv, rfl, hpending⟩

end UniJit.Runtime.AssumptionSystem

namespace UniJit.Runtime.AssumptionActivation

/-- The tokens an activation is registered with are those of the dependencies before its count. -/
lemma mem_subscribed {a : AssumptionActivation} {position : Nat} {d : AssumptionDependency}
    (hlt : position < a.subscriptionCount) (hd : a.set.dependencies[position]? = some d) :
    d.assumption ∈ a.subscribed := by
  apply List.mem_map_of_mem
  apply List.mem_of_getElem? (i := position)
  rw [List.getElem?_take_of_lt hlt, hd]

end UniJit.Runtime.AssumptionActivation

namespace UniJit.Jit

open UniJit.Ir UniJit.Lib UniJit.Lib.Transitions UniJit.Runtime

/-! ## Invocations that are asked -/

namespace Invocation

/-- Whether an invocation will still check the dependency at a position. -/
def Unchecked (v : Invocation) (position : Nat) : Prop :=
  match v.stage with
  | .activating | .native => True
  | .checking _ checked => checked ≤ position
  | .loaded | .finished _ => False

/-- The position of the dependency that an invocation will check next, after its native code. -/
def position? (v : Invocation) : Option Nat :=
  match v.stage with
  | .checking _ position => some position
  | _ => none

/-- An invocation is registered with a token and will still check it. -/
def Awaits (p : AssumptionSystem) (v : Invocation) (token : Token) : Prop :=
  ∃ i a position d, v.activation = some i ∧ p.activations[i]? = some a ∧
    position < a.subscriptionCount ∧ a.set.dependencies[position]? = some d ∧
    d.assumption = token ∧ v.Unchecked position

/-- An invocation is asked: an invalidation of a token it is registered with has requested the
wake-up of its context, and it has not noticed. -/
def Asked (p : AssumptionSystem) (c : ContextId) (v : Invocation) : Prop :=
  ∃ token, v.Awaits p token ∧ p.RequestMade c token

/-- Whether a position is unchecked can be computed. -/
instance (v : Invocation) (position : Nat) : Decidable (v.Unchecked position) :=
  match h : v.stage with
  | .activating | .native => .isTrue (by simp [Unchecked, h])
  | .checking _ checked => decidable_of_iff (checked ≤ position) (by simp [Unchecked, h])
  | .loaded | .finished _ => .isFalse (by simp [Unchecked, h])

/-- Whether an invocation awaits a token can be computed. -/
instance (p : AssumptionSystem) (v : Invocation) (token : Token) : Decidable (v.Awaits p token) :=
  decidable_of_iff (∃ i ∈ v.activation.toList, ∃ a ∈ (p.activations[i]?).toList,
      ∃ position < a.subscriptionCount, ∃ d ∈ (a.set.dependencies[position]?).toList,
        d.assumption = token ∧ v.Unchecked position)
    (by simp only [Awaits, Option.mem_toList]; tauto)

/-- Whether an invocation is asked to leave can be computed. -/
instance (p : AssumptionSystem) (c : ContextId) (v : Invocation) : Decidable (v.Asked p c) :=
  decidable_of_iff (∃ inv ∈ p.invalidations, c ∈ inv.requested ∧ v.Awaits p inv.token)
    ⟨fun ⟨inv, hinv, hc, hv⟩ => ⟨inv.token, hv, inv, hinv, rfl, hc⟩,
      fun ⟨_, hv, inv, hinv, heq, hc⟩ => ⟨inv, hinv, hc, heq ▸ hv⟩⟩

variable {p p' : AssumptionSystem} {c : ContextId} {v v' : Invocation}

/-- An invocation is asked exactly about a dependency that it has registered and not checked. -/
lemma asked_iff {i : Nat} {a : AssumptionActivation} (hv : v.activation = some i)
    (ha : p.activations[i]? = some a) :
    v.Asked p c ↔ ∃ position d, position < a.subscriptionCount ∧
      a.set.dependencies[position]? = some d ∧ p.RequestMade c d.assumption ∧
      v.Unchecked position := by
  constructor
  · rintro ⟨token, ⟨i', a', position, d, hi, ha', hlt, hd, rfl, hunchecked⟩, hmade⟩
    obtain rfl := Option.some.inj (hv.symm.trans hi)
    obtain rfl := Option.some.inj (ha.symm.trans ha')
    exact ⟨position, d, hlt, hd, hmade, hunchecked⟩
  · rintro ⟨position, d, hlt, hd, hmade, hunchecked⟩
    exact ⟨d.assumption, ⟨i, a, position, d, hv, ha, hlt, hd, rfl, hunchecked⟩, hmade⟩

/-- Without an activation nobody is asked. -/
lemma not_asked_of_none (h : v.activation = none) : ¬ v.Asked p c := by
  rintro ⟨token, ⟨i, a, position, d, hi, -⟩, -⟩
  simp [h] at hi

/-- Before its first check an invocation with something to check is on its way into native code, or in
it. -/
lemma Unchecked.stage {position : Nat} (h : v.Unchecked position) (hbefore : v.position? = none) :
    v.stage = .activating ∨ v.stage = .native := by
  cases hstage : v.stage <;> simp_all [Unchecked, position?]

/-- Before its activation and after its end an invocation is not asked. -/
lemma not_asked_of_stage (h : ∀ position, ¬ v.Unchecked position) : ¬ v.Asked p c := by
  rintro ⟨token, ⟨i, a, position, d, -, -, -, -, -, hunchecked⟩, -⟩
  exact h position hunchecked

lemma not_asked_of_loaded (h : v.stage = .loaded) : ¬ v.Asked p c :=
  not_asked_of_stage (by simp [Unchecked, h])

/-- When it has finished nobody is asked. -/
lemma not_asked_of_finished {result : InvocationResult} (h : v.stage = .finished result) :
    ¬ v.Asked p c :=
  not_asked_of_stage (by simp [Unchecked, h])

end Invocation

namespace InvocationSystem

variable {s s' : InvocationSystem} {c : ContextId} {e : InvocationEvent}

/-- No turn of an invocation makes a request. -/
lemma Effect.requestMade {v v' : Invocation} {p : AssumptionSystem} (h : Effect s c v v' p)
    {c' : ContextId} {token : Token} :
    p.RequestMade c' token ↔ s.protocol.RequestMade c' token := by
  apply AssumptionSystem.requestMade_congr
  cases h with
  | none activation activations assumptions invalidations => exact invalidations
  | own activation same activations assumptions invalidations touches =>
      exact touches.invalidations.trans invalidations
  | new stage activation activations assumptions invalidations => exact invalidations

/-- A turn of one invocation has no part in whether another is asked. -/
lemma Effect.asked_other {v v' w : Invocation} {p : AssumptionSystem} {c' : ContextId}
    (h : Effect s c v v' p)
    (hw : ∀ j, w.activation = some j →
      v.activation ≠ some j ∧ ∃ a, s.protocol.activations[j]? = some a) :
    w.Asked p c' ↔ w.Asked s.protocol c' := by
  cases hj : w.activation with
  | none => exact iff_of_false (Invocation.not_asked_of_none hj) (Invocation.not_asked_of_none hj)
  | some j =>
      obtain ⟨hne, a, ha⟩ := hw j hj
      rw [Invocation.asked_iff hj (h.other ha hne), Invocation.asked_iff hj ha]
      simp only [h.requestMade]

/-! ## Careful steps -/

/-- The wake-up bit of a context. -/
def wakeupRequested (p : AssumptionSystem) (c : ContextId) : Bool := (p.interrupts c).getLsbD 1

/-- The condition on a step, in the state before it:

* no invocation begins on a context, past its checks, while another on the context is asked;
* no invocation finds its own assumption invalid while an outer one on the context is asked;
* no activation fails while its invocation is asked, unless an outer one is asked as well;
* no wake-up is requested of a context on which no invocation will still check the token and none is
  asked already. -/
def Careful (s : InvocationSystem) : InvocationEvent → Prop
  | .prepare c => ∀ v ∈ (s.calls c).head?,
      validateTrustedObjectBindings v.code.trustedObjects v.code.trustedObjectWritable
        (some (s.contexts c).record) = .ok () →
      ∀ w ∈ (s.calls c).tail, ¬ w.Asked s.protocol c
  | .check c => ∀ v ∈ (s.calls c).head?, ∀ position ∈ v.position?,
      ∀ d ∈ v.code.assumptions.dependencies[position]?,
        (s.protocol.assumptions d.assumption).valid = false →
        ∀ w ∈ (s.calls c).tail, ¬ w.Asked s.protocol c
  | .enter c => ∀ v ∈ (s.calls c).head?, ∀ i ∈ v.activation, ∀ a ∈ s.protocol.activations[i]?,
      a.ok = false → v.Asked s.protocol c → ∃ w ∈ (s.calls c).tail, w.Asked s.protocol c
  | .requestWakeup j => ∀ inv ∈ s.protocol.invalidations[j]?, ∀ c ∈ inv.pending.head?,
      ∃ w ∈ s.calls c, w.Awaits s.protocol inv.token ∨ w.Asked s.protocol c
  | _ => True

/-- Whether an event is careful can be computed. -/
instance (s : InvocationSystem) (e : InvocationEvent) : Decidable (s.Careful e) := by
  cases e <;> unfold Careful <;> infer_instance

/-- What a careful turn does to the wake-up of its context and to who is asked. -/
inductive Wakes (s : InvocationSystem) (c : ContextId) (v : Invocation) (rest : List Invocation)
    (v' : Invocation) (p : AssumptionSystem) : Prop
  | kept (interrupts : p.interrupts = s.protocol.interrupts)
      (asked : v'.Asked p c ↔ v.Asked s.protocol c)
  | dropped (interrupts : p.interrupts = s.protocol.interrupts) (quiet : ¬ v'.Asked p c)
      (outer : v.Asked s.protocol c → ∃ w ∈ rest, w.Asked s.protocol c)
  | cleared (interrupts : p.interrupts = (clearDeoptimizationWakeup s.protocol c).interrupts)
      (quiet : ¬ v'.Asked p c) (outer : ∀ w ∈ rest, ¬ w.Asked s.protocol c)

/-- A step of the own activation that does not change what it is registered with. -/
lemma asked_touches {v v' : Invocation} {i : Nat} {a a' : AssumptionActivation}
    {p : AssumptionSystem} (hv : v.activation = some i) (hsame : v'.activation = v.activation)
    (htouches : AssumptionSystem.Touches s.protocol i a a' p)
    (hcount : a'.subscriptionCount = a.subscriptionCount)
    (hunchecked : ∀ position, v'.Unchecked position ↔ v.Unchecked position) :
    v'.Asked p c ↔ v.Asked s.protocol c := by
  have ha' : p.activations[i]? = some a' := by
    rw [htouches.activations, List.getElem?_set_self]
    exact (List.getElem?_eq_some_iff.mp htouches.found).1
  rw [Invocation.asked_iff (hsame.trans hv) ha', Invocation.asked_iff hv htouches.found]
  simp only [hcount, htouches.set, AssumptionSystem.requestMade_congr htouches.invalidations,
    hunchecked]

/-- Leaving the native code changes nothing: every dependency will be checked. -/
lemma wakes_leave {v v' : Invocation} {rest : List Invocation} {p : AssumptionSystem}
    (hstage : v.stage = .native) {value : Word} (hstage' : v'.stage = .checking value 0)
    (hsame : v'.activation = v.activation)
    (hprotocol : protocolStep s.protocol v.activation .leave = some p) :
    Wakes s c v rest v' p := by
  cases hv : v.activation with
  | none =>
      rw [hv] at hprotocol
      obtain rfl := Option.some.inj hprotocol
      exact .kept rfl (iff_of_false (Invocation.not_asked_of_none (hsame.trans hv))
        (Invocation.not_asked_of_none hv))
  | some i =>
      rw [hv] at hprotocol
      obtain ⟨a, a', htouches, hcount⟩ :=
        AssumptionSystem.mark_touches (.inr (.inl rfl)) hprotocol
      refine .kept htouches.interrupts (asked_touches hv hsame htouches hcount ?_)
      simp [Invocation.Unchecked, hstage, hstage']

/-- Nobody is asked for the dependency that was read just now: it holds. -/
lemma asked_check {v v' : Invocation} {value : Word} {position : Nat} {d : AssumptionDependency}
    (hregistered : s.protocol.Registered)
    (howned : ∀ i, v.activation = some i →
      ∃ a, s.protocol.activations[i]? = some a ∧ a.context = c ∧ a.set = v.code.assumptions)
    (hsame : v'.activation = v.activation) (hstage : v.stage = .checking value position)
    (hstage' : v'.stage = .checking value (position + 1))
    (hdependency : v.code.assumptions.dependencies[position]? = some d)
    (hvalid : (s.protocol.assumptions d.assumption).valid = true) :
    v'.Asked s.protocol c ↔ v.Asked s.protocol c := by
  cases hv : v.activation with
  | none =>
      exact iff_of_false (Invocation.not_asked_of_none (hsame.trans hv))
        (Invocation.not_asked_of_none hv)
  | some i =>
      obtain ⟨a, ha, -, hset⟩ := howned i hv
      rw [Invocation.asked_iff (hsame.trans hv) ha, Invocation.asked_iff hv ha]
      simp only [Invocation.Unchecked, hstage, hstage']
      constructor
      · rintro ⟨q, d', hlt, hd', hmade, hq⟩
        exact ⟨q, d', hlt, hd', hmade, by omega⟩
      · rintro ⟨q, d', hlt, hd', hmade, hq⟩
        refine ⟨q, d', hlt, hd', hmade, ?_⟩
        have hne : q ≠ position := by
          rintro rfl
          rw [hset, hdependency] at hd'
          obtain rfl := Option.some.inj hd'
          have hclosed := hregistered.closed_of_requestMade hmade
          simp [hvalid] at hclosed
        omega

/-- A release leaves the interrupt words alone. -/
lemma protocolStep_interrupts {p p' : AssumptionSystem} {activation : Option Nat}
    (h : protocolStep p activation .release = some p') : p'.interrupts = p.interrupts := by
  cases activation with
  | none =>
      obtain rfl := Option.some.inj h
      rfl
  | some i =>
      obtain ⟨a, a', htouches, -⟩ := AssumptionSystem.mark_touches (.inr (.inr rfl)) h
      exact htouches.interrupts

/-- A turn keeps the wake-up of those who are asked. -/
lemma Turn.wakes {v v' : Invocation} {rest : List Invocation} {x : NativeContext}
    {p : AssumptionSystem} (h : Turn s c v e v' x p) (hregistered : s.protocol.Registered)
    (hlinked : s.Linked) (hcalls : s.calls c = v :: rest) (hcareful : s.Careful e) :
    Wakes s c v rest v' p := by
  have hmem : v ∈ s.calls c := by simp [hcalls]
  have hhead : v ∈ (s.calls c).head? := by simp [hcalls]
  have hrest : (s.calls c).tail = rest := by simp [hcalls]
  cases h with
  | prepare stage objects free =>
      refine .cleared rfl ?_ (hrest ▸ hcareful v hhead objects)
      exact Invocation.not_asked_of_none (hlinked.idle c v hmem stage)
  | activate stage objects protocol =>
      obtain rfl := Option.some.inj protocol
      refine .cleared rfl ?_ (hrest ▸ hcareful v hhead objects)
      rw [Invocation.asked_iff (a := { set := v.code.assumptions, context := c }) rfl
        (by simp [clearDeoptimizationWakeup])]
      simp
  | @construct i allocated p stage activation protocol =>
      obtain ⟨a, a', htouches, hcount | ⟨hcount, d, hd, hvalid⟩⟩ :=
        AssumptionSystem.construct_touches protocol
      · exact .kept htouches.interrupts
          (asked_touches activation rfl htouches hcount fun _ => Iff.rfl)
      · refine .kept htouches.interrupts ?_
        have ha' : p.activations[i]? = some a' := by
          rw [htouches.activations, List.getElem?_set_self]
          exact (List.getElem?_eq_some_iff.mp htouches.found).1
        rw [Invocation.asked_iff activation ha', Invocation.asked_iff activation htouches.found]
        simp only [hcount, htouches.set,
          AssumptionSystem.requestMade_congr htouches.invalidations]
        constructor
        · rintro ⟨position, d', hlt, hd', hmade, hunchecked⟩
          refine ⟨position, d', ?_, hd', hmade, hunchecked⟩
          -- The token that was registered just now holds.
          have hne : position ≠ a.subscriptionCount := by
            rintro rfl
            obtain rfl := Option.some.inj (hd.symm.trans hd')
            have hclosed := hregistered.closed_of_requestMade hmade
            simp [hvalid] at hclosed
          omega
        · rintro ⟨position, d', hlt, hrest⟩
          exact ⟨position, d', by omega, hrest⟩
  | @exhaust i a status p stage activation found failed protocol =>
      obtain ⟨a₀, a', htouches, -⟩ := AssumptionSystem.mark_touches (.inr (.inr rfl)) protocol
      refine .dropped htouches.interrupts (Invocation.not_asked_of_finished rfl) ?_
      exact hrest ▸ hcareful v hhead i activation a found
        (by simp [AssumptionActivation.ok, failed])
  | @reject i k a d p stage activation found invalid dependency protocol =>
      obtain ⟨a₀, a', htouches, -⟩ := AssumptionSystem.mark_touches (.inr (.inr rfl)) protocol
      refine .dropped htouches.interrupts (Invocation.not_asked_of_finished rfl) ?_
      exact hrest ▸ hcareful v hhead i activation a found
        (by simp [AssumptionActivation.ok, invalid])
  | enter stage activation protocol =>
      obtain ⟨a, a', htouches, hcount⟩ := AssumptionSystem.mark_touches (.inl rfl) protocol
      refine .kept htouches.interrupts (asked_touches activation rfl htouches hcount ?_)
      simp [Invocation.Unchecked, stage]
  | poll stage => exact .kept rfl Iff.rfl
  | exitNative stage reason protocol => exact wakes_leave stage rfl rfl protocol
  | returnNative stage protocol => exact wakes_leave stage rfl rfl protocol
  | @check value position d stage dependency valid =>
      exact .kept rfl (asked_check hregistered (hlinked.owned c v hmem) rfl stage rfl dependency valid)
  | @deoptimize value position d p stage dependency invalid protocol =>
      refine .cleared (protocolStep_interrupts protocol)
        (Invocation.not_asked_of_finished rfl) ?_
      exact hrest ▸ hcareful v hhead position (by simp [Invocation.position?, stage]) d dependency
        invalid
  | @complete value position p stage last protocol =>
      refine .dropped (protocolStep_interrupts protocol)
        (Invocation.not_asked_of_finished rfl) ?_
      rintro ⟨token, ⟨i, a, q, d, hi, ha, hlt, hd, -, hunchecked⟩, -⟩
      obtain ⟨b, hb, -, hset⟩ := hlinked.owned c v hmem i hi
      obtain rfl := Option.some.inj (ha.symm.trans hb)
      -- Every dependency was read, and this one is not after the last.
      simp only [Invocation.Unchecked, stage] at hunchecked
      have hle := List.getElem?_eq_none_iff.mp last
      have hq := (List.getElem?_eq_some_iff.mp hd).1
      rw [hset] at hq
      omega
  | release stage activation protocol =>
      obtain ⟨a, a', htouches⟩ := AssumptionSystem.unsubscribe_touches protocol
      exact .kept htouches.interrupts (iff_of_false (Invocation.not_asked_of_finished stage)
        (Invocation.not_asked_of_finished stage))

/-! ## The invariant -/

/-- The wake-up bit of a context is set exactly while an invocation on it is asked. -/
def Woken (s : InvocationSystem) : Prop :=
  ∀ c, wakeupRequested s.protocol c = true ↔ ∃ v ∈ s.calls c, v.Asked s.protocol c

/-- A cleared wake-up is not requested. -/
lemma wakeupRequested_clear_self (p : AssumptionSystem) (c : ContextId) :
    wakeupRequested (clearDeoptimizationWakeup p c) c = false := by
  simp [wakeupRequested, clearDeoptimizationWakeup, wakeupBit]

/-- Clearing one context leaves the others alone. -/
lemma wakeupRequested_clear_of_ne {p : AssumptionSystem} {c c' : ContextId} (h : c' ≠ c) :
    wakeupRequested (clearDeoptimizationWakeup p c) c' = wakeupRequested p c' := by
  simp [wakeupRequested, clearDeoptimizationWakeup, h]

/-- A wake-up depends on the interrupt words only. -/
lemma wakeupRequested_congr {p p' : AssumptionSystem} (h : p'.interrupts = p.interrupts)
    (c : ContextId) : wakeupRequested p' c = wakeupRequested p c := by
  simp only [wakeupRequested, h]

/-- Other contexts do not notice a turn. -/
lemma Wakes.elsewhere {v v' : Invocation} {rest : List Invocation} {p : AssumptionSystem}
    (h : Wakes s c v rest v' p) {c' : ContextId} (hc : c' ≠ c) :
    wakeupRequested p c' = wakeupRequested s.protocol c' := by
  cases h with
  | kept interrupts asked => exact wakeupRequested_congr interrupts c'
  | dropped interrupts quiet outer => exact wakeupRequested_congr interrupts c'
  | cleared interrupts quiet outer =>
      rw [wakeupRequested_congr interrupts, wakeupRequested_clear_of_ne hc]

/-- A careful turn keeps the wake-up of its context in step with who is asked. -/
lemma Wakes.here {v v' : Invocation} {rest : List Invocation} {p : AssumptionSystem}
    (h : Wakes s c v rest v' p)
    (hbefore : wakeupRequested s.protocol c = true ↔
      v.Asked s.protocol c ∨ ∃ w ∈ rest, w.Asked s.protocol c) :
    wakeupRequested p c = true ↔ v'.Asked p c ∨ ∃ w ∈ rest, w.Asked s.protocol c := by
  cases h with
  | kept interrupts asked => rw [wakeupRequested_congr interrupts, hbefore, asked]
  | dropped interrupts quiet outer =>
      rw [wakeupRequested_congr interrupts, hbefore]
      constructor
      · rintro (hv | hrest)
        · exact .inr (outer hv)
        · exact .inr hrest
      · rintro (hv' | hrest)
        · exact absurd hv' quiet
        · exact .inr hrest
  | cleared interrupts quiet outer =>
      rw [wakeupRequested_congr interrupts, wakeupRequested_clear_self]
      constructor
      · intro hfalse
        simp at hfalse
      · rintro (hv' | ⟨w, hw, hasked⟩)
        · exact absurd hv' quiet
        · exact absurd hasked (outer w hw)

/-- A careful turn keeps everyone who is asked woken. -/
lemma Woken.turn {v v' : Invocation} {rest : List Invocation} {x : NativeContext}
    {p : AssumptionSystem} (h : s.Woken) (hregistered : s.protocol.Registered)
    (hlinked : s.Linked) (hcalls : s.calls c = v :: rest)
    (hturn : Turn s c v e v' x p) (hcareful : s.Careful e) :
    Woken (({ s with protocol := p }.setContext c x).setStack c (v' :: rest)) := by
  have heffect := hturn.effect
  have hwakes := hturn.wakes hregistered hlinked hcalls hcareful
  have hmem : v ∈ s.calls c := by simp [hcalls]
  intro c'
  by_cases hc : c' = c
  · subst hc
    have hrest : ∀ w ∈ rest, w.Asked p c' ↔ w.Asked s.protocol c' := by
      intro w hw
      refine heffect.asked_other fun j hj => ⟨hlinked.activation_ne hcalls hw hj, ?_⟩
      obtain ⟨a, ha, -⟩ := hlinked.owned c' w (by simp [hcalls, hw]) j hj
      exact ⟨a, ha⟩
    have hbefore := h c'
    simp only [hcalls, List.mem_cons, exists_eq_or_imp] at hbefore
    have hafter := hwakes.here hbefore
    simp only [setStack, setContext, Function.update_self, List.mem_cons, exists_eq_or_imp]
    rw [hafter]
    exact or_congr_right (exists_congr fun w => and_congr_right fun hw => (hrest w hw).symm)
  · have hrest : ∀ w ∈ s.calls c', w.Asked p c' ↔ w.Asked s.protocol c' := by
      intro w hw
      refine heffect.asked_other fun j hj => ⟨hlinked.activation_ne_of_ne hmem hw hc hj, ?_⟩
      obtain ⟨a, ha, -⟩ := hlinked.owned c' w hw j hj
      exact ⟨a, ha⟩
    simp only [setStack, setContext, Function.update_of_ne hc]
    rw [hwakes.elsewhere hc, h c']
    exact exists_congr fun w => and_congr_right fun hw => (hrest w hw).symm

/-- A stack that changes only in invocations that are not asked. -/
lemma Woken.setStack {calls : List Invocation} (h : s.Woken)
    (hcalls : (∃ v ∈ calls, v.Asked s.protocol c) ↔ ∃ v ∈ s.calls c, v.Asked s.protocol c) :
    Woken (s.setStack c calls) := by
  intro c'
  by_cases hc : c' = c
  · subst hc
    simp only [InvocationSystem.setStack, Function.update_self]
    rw [hcalls]
    exact h c'
  · simp only [InvocationSystem.setStack, Function.update_of_ne hc]
    exact h c'

/-- A call that is not asked may return. -/
lemma Woken.pop {v : Invocation} {rest : List Invocation} (h : s.Woken)
    (hcalls : s.calls c = v :: rest) (hquiet : ¬ v.Asked s.protocol c) :
    Woken (s.setStack c rest) := by
  apply h.setStack
  simp [hcalls, hquiet]

/-- Leaving a call that is not asked keeps the others woken. -/
lemma Woken.leave {v : Invocation} {rest : List Invocation} (h : s.Woken)
    (hcalls : s.calls c = v :: rest) (hquiet : ¬ v.Asked s.protocol c) : Woken (s.leave c rest) := by
  cases rest with
  | nil => exact h.pop hcalls hquiet
  | cons outer rest =>
      apply h.setStack
      have hsame : Invocation.Asked s.protocol c
          { outer with inner := (s.contexts c).exitRecord } ↔ outer.Asked s.protocol c := Iff.rfl
      simp [hcalls, hquiet, hsame]

/-- The registered contexts of a token are those of the invocations that are registered with it. -/
lemma Linked.mem_activeContexts {w : Invocation} {token : Token} (h : s.Linked)
    (hregistered : s.protocol.Registered) (hw : w ∈ s.calls c)
    (hawaits : w.Awaits s.protocol token) :
    c ∈ (s.protocol.assumptions token).activeContexts := by
  obtain ⟨i, a, position, d, hi, ha, hlt, hd, rfl, -⟩ := hawaits
  obtain ⟨b, hb, rfl, -⟩ := h.owned c w hw i hi
  obtain rfl := Option.some.inj (ha.symm.trans hb)
  rw [← List.count_pos_iff, hregistered.counted, List.countP_pos_iff]
  refine ⟨a, List.mem_of_getElem? ha, ?_⟩
  simp only [true_and, decide_eq_true_eq]
  exact AssumptionActivation.mem_subscribed hlt hd

/-- A request wakes its context and leaves the others as they were. -/
lemma wakeupRequested_requestWakeup {p : AssumptionSystem} {j : Nat} {inv : Invalidation}
    {asked : ContextId} {rest : List ContextId} :
    wakeupRequested (p.requestWakeup j inv asked rest) c = true ↔
      c = asked ∨ wakeupRequested p c = true := by
  unfold wakeupRequested AssumptionSystem.requestWakeup
  by_cases hc : c = asked
  · subst hc
    simp [wakeupBit]
  · simp [hc]

/-- A request asks those on its context who will still check the token. -/
lemma asked_requestWakeup {p : AssumptionSystem} {j : Nat} {inv : Invalidation}
    {asked : ContextId} {rest : List ContextId} (hfound : p.invalidations[j]? = some inv)
    {w : Invocation} :
    w.Asked (p.requestWakeup j inv asked rest) c ↔
      w.Asked p c ∨ c = asked ∧ w.Awaits p inv.token := by
  have hawaits : ∀ t, w.Awaits (p.requestWakeup j inv asked rest) t ↔ w.Awaits p t :=
    fun _ => Iff.rfl
  simp only [Invocation.Asked, hawaits, AssumptionSystem.requestMade_requestWakeup hfound]
  constructor
  · rintro ⟨t, ht, hmade | ⟨rfl, rfl⟩⟩
    · exact .inl ⟨t, ht, hmade⟩
    · exact .inr ⟨rfl, ht⟩
  · rintro (⟨t, ht, hmade⟩ | ⟨rfl, ht⟩)
    · exact ⟨t, ht, .inl hmade⟩
    · exact ⟨inv.token, ht, .inr ⟨rfl, rfl⟩⟩

/-- A careful request of a wake-up. -/
lemma Woken.requestWakeup {j : Nat} {inv : Invalidation} {asked : ContextId}
    {rest : List ContextId} (h : s.Woken) (hcareful : s.Careful (.requestWakeup j))
    (hfound : s.protocol.invalidations[j]? = some inv) (hpending : inv.pending = asked :: rest) :
    Woken { s with protocol := s.protocol.requestWakeup j inv asked rest } := by
  intro c
  change wakeupRequested (s.protocol.requestWakeup j inv asked rest) c = true ↔ _
  rw [wakeupRequested_requestWakeup, h c]
  constructor
  · rintro (rfl | ⟨w, hw, hasked⟩)
    · obtain ⟨w, hw, hawaits | hasked⟩ := hcareful inv hfound c (by simp [hpending])
      · exact ⟨w, hw, (asked_requestWakeup hfound).mpr (.inr ⟨rfl, hawaits⟩)⟩
      · exact ⟨w, hw, (asked_requestWakeup hfound).mpr (.inl hasked)⟩
    · exact ⟨w, hw, (asked_requestWakeup hfound).mpr (.inl hasked)⟩
  · rintro ⟨w, hw, hasked⟩
    rcases (asked_requestWakeup hfound).mp hasked with hasked | ⟨rfl, -⟩
    · exact .inr ⟨w, hw, hasked⟩
    · exact .inl rfl

/-- What happens outside keeps everyone who is asked woken. -/
lemma Woken.outside {p : AssumptionSystem} (h : s.Woken) (hcareful : s.Careful e)
    (houtside : Outside s.protocol e p) : Woken { s with protocol := p } := by
  -- A step that makes no request, and leaves the bit alone, leaves everybody asked or not.
  have hkeep : ∀ p : AssumptionSystem, p.activations = s.protocol.activations →
      (∀ c, wakeupRequested p c = wakeupRequested s.protocol c) →
      (∀ c token, p.RequestMade c token ↔ s.protocol.RequestMade c token) →
      Woken { s with protocol := p } := by
    intro p hactivations hbit hmade c
    have hasked : ∀ w : Invocation, w.Asked p c ↔ w.Asked s.protocol c := by
      intro w
      simp only [Invocation.Asked, Invocation.Awaits, hactivations, hmade]
    change wakeupRequested p c = true ↔ ∃ w ∈ s.calls c, w.Asked p c
    rw [hbit, h c]
    simp only [hasked]
  cases houtside with
  | invalidate step =>
      obtain ⟨-, rfl⟩ := AssumptionSystem.invalidate_eq_some step
      exact hkeep _ rfl (fun _ => rfl) fun _ _ => AssumptionSystem.requestMade_invalidate
  | requested step =>
      obtain ⟨inv, asked, rest, hfound, hpending, rfl⟩ :=
        AssumptionSystem.requestWakeup_eq_some step
      exact h.requestWakeup hcareful hfound hpending
  | returned step =>
      obtain ⟨inv, hfound, hchange⟩ := Option.bind_eq_some_iff.mp step
      simp only [Option.ite_none_right_eq_some, Option.some.injEq] at hchange
      obtain ⟨-, rfl⟩ := hchange
      exact hkeep _ rfl (fun _ => rfl) fun _ _ => AssumptionSystem.requestMade_returned hfound
  | userInterrupt c' requested =>
      refine hkeep _ rfl (fun c => ?_) fun _ _ => Iff.rfl
      unfold wakeupRequested AssumptionSystem.setUserInterrupt
      by_cases hc : c = c'
      · subst hc
        cases requested <;> simp [interruptBit]
      · simp [hc]

/-- **Step.** A careful step keeps the wake-ups in step with who is asked. -/
lemma Woken.move (h : s.Woken) (hlinked : s.Linked) (hregistered : s.protocol.Registered)
    (hcareful : s.Careful e) (hmove : Move s e s') : s'.Woken := by
  cases hmove with
  | rejected c f argCount argsNull => exact h
  | @invoke c f argCount argsNull v idle begun =>
      have hquiet : ¬ v.Asked s.protocol c :=
        Invocation.not_asked_of_none (beginInvocation_activation begun).1
      apply h.setStack
      simp [hquiet]
  | drop calls stage => exact h.pop calls (Invocation.not_asked_of_loaded stage)
  | turn calls turn => exact h.turn hregistered hlinked calls turn hcareful
  | leave calls stage released => exact h.leave calls (Invocation.not_asked_of_finished stage)
  | outside outside => exact h.outside hcareful outside
  | fastCall step => exact h
  | bind c regions objects oracles => exact h

/-- **Run.** In every run of careful steps the wake-ups are in step with who is asked. -/
lemma woken_afterEvents {events : List InvocationEvent} (hcareful : Along step Careful {} events)
    (hrun : afterEvents step {} events = some s) :
    s.protocol.Registered ∧ s.Linked ∧ s.Woken := by
  refine invariant_along (I := fun s => s.protocol.Registered ∧ s.Linked ∧ s.Woken) ?_ ?_ hcareful
    hrun
  · intro s e s' h hc hstep
    have hmove := step_move hstep
    exact ⟨hmove.registered h.1, h.2.1.move h.1 hmove, h.2.2.move h.2.1 h.1 hc hmove⟩
  · refine ⟨AssumptionSystem.registered_start _, linked_start, ?_⟩
    intro c
    simp [wakeupRequested]

/-- An invocation on its way into native code, or in it, will check every token it holds. -/
lemma awaits_of_subscribed {v : Invocation} {i : Nat} {a : AssumptionActivation} {token : Token}
    (hstage : v.stage = .activating ∨ v.stage = .native) (hi : v.activation = some i)
    (ha : s.protocol.activations[i]? = some a) (htoken : token ∈ a.subscribed) :
    v.Awaits s.protocol token := by
  obtain ⟨d, hd, rfl⟩ := List.mem_map.mp htoken
  obtain ⟨position, hposition⟩ := List.mem_iff_getElem?.mp hd
  rw [List.getElem?_take] at hposition
  split_ifs at hposition with hlt
  refine ⟨i, a, position, d, hi, ha, hlt, hposition, rfl, ?_⟩
  rcases hstage with hstage | hstage <;> simp [Invocation.Unchecked, hstage]

/-- A request that an invalidation will still make goes to an invocation that is registered. -/
lemma Linked.exists_of_pending (h : s.Linked) (hregistered : s.protocol.Registered)
    {inv : Invalidation} (hinv : inv ∈ s.protocol.invalidations) (hc : c ∈ inv.pending) :
    ∃ v ∈ s.calls c, ∃ i a, v.activation = some i ∧ s.protocol.activations[i]? = some a ∧
      a.subscribed ≠ [] := by
  have hactive := hregistered.pending inv hinv c hc
  rw [← List.count_pos_iff, hregistered.counted, List.countP_pos_iff] at hactive
  obtain ⟨a, ha, hholds⟩ := hactive
  obtain ⟨rfl, htoken⟩ : a.context = c ∧ inv.token ∈ a.subscribed := by simpa using hholds
  obtain ⟨i, hi⟩ := List.mem_iff_getElem?.mp ha
  obtain ⟨v, hv, hactivation⟩ := h.held i a hi (List.ne_nil_of_mem htoken)
  exact ⟨v, hv, i, a, hactivation, hi, List.ne_nil_of_mem htoken⟩

/-- **Wake-ups.** In every run whose steps are all careful, in every state it reaches:

1. an invocation that is on its way into native code, or runs it, finds the wake-up of its context
   set from the moment an invalidation of a token it is registered with has requested it; and when
   such a token is closed, that has happened, or the invalidation will still request it;
2. when no invocation on a context is registered with any token, the wake-up of the context is not
   set, and no invalidation will request it. -/
theorem wakeups_neither_lost_nor_leaked (events : List InvocationEvent) (s : InvocationSystem)
    (hcareful : Along step Careful {} events) (hrun : afterEvents step {} events = some s)
    (c : ContextId) :
    (∀ v ∈ s.calls c, v.stage = .activating ∨ v.stage = .native →
      ∀ i a, v.activation = some i → s.protocol.activations[i]? = some a →
      ∀ token ∈ a.subscribed,
        (∀ inv ∈ s.protocol.invalidations, inv.token = token → c ∈ inv.requested →
          wakeupRequested s.protocol c = true) ∧
        ((s.protocol.assumptions token).valid = false →
          wakeupRequested s.protocol c = true ∨
            ∃ inv ∈ s.protocol.invalidations, inv.token = token ∧ c ∈ inv.pending)) ∧
    ((∀ v ∈ s.calls c, ∀ i a, v.activation = some i → s.protocol.activations[i]? = some a →
      a.subscribed = []) →
      wakeupRequested s.protocol c = false ∧
        ∀ inv ∈ s.protocol.invalidations, c ∉ inv.pending) := by
  obtain ⟨hregistered, hlinked, hwoken⟩ := woken_afterEvents hcareful hrun
  constructor
  · intro v hv hstage i a hi ha token htoken
    have hawaits := awaits_of_subscribed hstage hi ha htoken
    have hset : s.protocol.RequestMade c token → wakeupRequested s.protocol c = true :=
      fun hmade => (hwoken c).mpr ⟨v, hv, token, hawaits, hmade⟩
    refine ⟨fun inv hinv heq hrequested => hset ⟨inv, hinv, heq, hrequested⟩, fun hclosed => ?_⟩
    have hactive := hlinked.mem_activeContexts hregistered hv hawaits
    exact (hregistered.requestMade_or_pending hclosed hactive).imp_left hset
  · intro hnone
    constructor
    · rw [← Bool.not_eq_true, hwoken c]
      rintro ⟨v, hv, token, ⟨i, a, position, d, hi, ha, hlt, hd, -, -⟩, -⟩
      have hmem := AssumptionActivation.mem_subscribed hlt hd
      rw [hnone v hv i a hi ha] at hmem
      simp at hmem
    · intro inv hinv hc
      obtain ⟨v, hv, i, a, hi, ha, hheld⟩ := hlinked.exists_of_pending hregistered hinv hc
      exact hheld (hnone v hv i a hi ha)

/-- A function that depends on token 0. -/
def sampleDependent : CompiledCode where
  number := 1
  entry := 32
  requiresContext := true
  assumptions := { dependencies := [⟨0, 10, 4⟩], site_le := by decide }

/-- A function that a helper of it invokes. -/
def sampleHelper : CompiledCode where
  number := 2
  entry := 64

/-- The dependent function runs native code. -/
def sampleEntry : List InvocationEvent :=
  [.invoke 0 sampleDependent 0 false, .prepare 0, .activate 0 true, .activate 0 true, .enter 0]

/-- The token is closed while the function runs, and a helper invokes another function before the
wake-up is requested. -/
def sampleRequest : List InvocationEvent :=
  sampleEntry ++ [.invalidate 0, .invoke 0 sampleHelper 0 false, .prepare 0, .returnNative 0 1,
    .check 0, .leave 0, .requestWakeup 0]

/-- The native code exits at a safepoint, and its invocation ends. -/
def sampleEnd : List InvocationEvent :=
  [.exitNative 0 { reason := .safepoint, site := 3 }, .check 0, .release 0, .release 0, .leave 0]

/-- Nobody is asked before the request, so the helper's invocation may clear the bit; the one that is
asked then notices it. -/
lemma careful_sample : Along step Careful {} (sampleRequest ++ sampleEnd) := by decide +kernel

/-- The wake-up is set when it has been requested, in spite of the helper's invocation, and it is
clear when the invocation has ended. -/
theorem wakeups_neither_lost_nor_leaked_sample :
    (∃ s, afterEvents step {} sampleRequest = some s ∧ wakeupRequested s.protocol 0 = true) ∧
      ∃ s, afterEvents step {} (sampleRequest ++ sampleEnd) = some s ∧
        wakeupRequested s.protocol 0 = false := by
  constructor
  · have hcareful : Along step Careful {} sampleRequest := by decide +kernel
    obtain ⟨s, hrun, v, hv, hbefore, hasked⟩ : ∃ s ∈ afterEvents step {} sampleRequest,
        ∃ v ∈ s.calls 0, v.position? = none ∧ v.Asked s.protocol 0 := by decide +kernel
    obtain ⟨token, ⟨i, a, position, d, hi, ha, hlt, hd, rfl, hunchecked⟩, inv, hinv, heq,
      hrequested⟩ := hasked
    exact ⟨s, hrun, ((wakeups_neither_lost_nor_leaked _ s hcareful hrun 0).1 v hv
      (hunchecked.stage hbefore) i a hi ha _ (AssumptionActivation.mem_subscribed hlt hd)).1 inv hinv
        heq hrequested⟩
  · obtain ⟨s, hrun, hcalls⟩ :
        ∃ s ∈ afterEvents step {} (sampleRequest ++ sampleEnd), (s.calls 0).length = 0 := by
      decide +kernel
    have hnone : s.calls 0 = [] := List.eq_nil_of_length_eq_zero hcalls
    exact ⟨s, hrun, ((wakeups_neither_lost_nor_leaked _ s careful_sample hrun 0).2
      (by simp [hnone])).1⟩

/-- Both parts fail in other runs. The token is closed while the dependent function runs, its
wake-up is requested, and then a helper invokes a function on the same context: the wake-up is gone.
Or the token is closed when the function has returned and its check has found the token valid: the
wake-up stays. It also stays when the check finds the token closed before the wake-up is
requested. -/
theorem wakeups_lost_and_leaked :
    (¬ ∀ (events : List InvocationEvent) (s : InvocationSystem),
      afterEvents step {} events = some s → ∀ c, ∀ v ∈ s.calls c,
        v.stage = .activating ∨ v.stage = .native →
        ∀ i a, v.activation = some i → s.protocol.activations[i]? = some a →
        ∀ token ∈ a.subscribed, ∀ inv ∈ s.protocol.invalidations, inv.token = token →
          c ∈ inv.requested → wakeupRequested s.protocol c = true) ∧
    (¬ ∀ (events : List InvocationEvent) (s : InvocationSystem),
      afterEvents step {} events = some s → ∀ c,
        (∀ v ∈ s.calls c, ∀ i a, v.activation = some i → s.protocol.activations[i]? = some a →
          a.subscribed = []) → wakeupRequested s.protocol c = false) ∧
    (∃ s, afterEvents step {} (sampleEntry ++ [.returnNative 0 7, .invalidate 0, .check 0,
        .requestWakeup 0, .release 0, .release 0, .leave 0]) = some s ∧
      s.calls 0 = [] ∧ wakeupRequested s.protocol 0 = true) := by
  refine ⟨?_, ?_, ?_⟩
  · intro h
    obtain ⟨s, hrun, v, hv, hbefore, hasked, hclear⟩ :
        ∃ s ∈ afterEvents step {} (sampleEntry ++
            [.invalidate 0, .requestWakeup 0, .invoke 0 sampleHelper 0 false, .prepare 0]),
          ∃ v ∈ s.calls 0, v.position? = none ∧ v.Asked s.protocol 0 ∧
            wakeupRequested s.protocol 0 = false := by
      decide +kernel
    obtain ⟨token, ⟨i, a, position, d, hi, ha, hlt, hd, rfl, hunchecked⟩, inv, hinv, heq,
      hrequested⟩ := hasked
    rw [h _ s hrun 0 v hv (hunchecked.stage hbefore) i a hi ha _
      (AssumptionActivation.mem_subscribed hlt hd) inv hinv heq hrequested] at hclear
    contradiction
  · intro h
    obtain ⟨s, hrun, hcalls, hset⟩ :
        ∃ s ∈ afterEvents step {} (sampleEntry ++ [.returnNative 0 7, .check 0, .invalidate 0,
            .requestWakeup 0, .check 0, .release 0, .release 0, .leave 0]),
          (s.calls 0).length = 0 ∧ wakeupRequested s.protocol 0 = true := by
      decide +kernel
    have hnone : s.calls 0 = [] := List.eq_nil_of_length_eq_zero hcalls
    rw [h _ s hrun 0 (by simp [hnone])] at hset
    contradiction
  · obtain ⟨s, hrun, hcalls, hset⟩ :
        ∃ s ∈ afterEvents step {} (sampleEntry ++ [.returnNative 0 7, .invalidate 0, .check 0,
            .requestWakeup 0, .release 0, .release 0, .leave 0]),
          (s.calls 0).length = 0 ∧ wakeupRequested s.protocol 0 = true := by
      decide +kernel
    exact ⟨s, hrun, List.eq_nil_of_length_eq_zero hcalls, hset⟩

end InvocationSystem

end UniJit.Jit
