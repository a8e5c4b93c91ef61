import UniJit.Jit.InvocationMoves

/-!
# Invocations and their activations

An invocation of a function with assumptions owns an activation of the protocol. Each turn of the
invocation is a step of that activation, or leaves the protocol alone, so what is known of the
protocol carries over to the system: whoever is registered with a token is an invocation in
progress on the registered context.
-/

namespace UniJit.Runtime.AssumptionSystem

/-! ## Steps of one activation -/

/-- A step of the activation `i` makes `a'` of `a`, and leaves alone the other activations, the
interrupt words, the invalidations and which tokens hold. -/
structure Touches (p : AssumptionSystem) (i : Nat) (a a' : AssumptionActivation)
    (p' : AssumptionSystem) : Prop where
  found : p.activations[i]? = some a
  activations : p'.activations = p.activations.set i a'
  valid : ∀ token, (p'.assumptions token).valid = (p.assumptions token).valid
  interrupts : p'.interrupts = p.interrupts
  invalidations : p'.invalidations = p.invalidations
  set : a'.set = a.set
  context : a'.context = a.context

variable {p p' : AssumptionSystem} {i : Nat}

/-- A change of the registrations of a token, and of an activation, closes no token. -/
lemma setAssumption_valid {token : Token} {a : Assumption} {b : AssumptionActivation}
    (h : a.valid = (p.assumptions token).valid) (other : Token) :
    (((p.setAssumption token a).setActivation i b).assumptions other).valid =
      (p.assumptions other).valid := by
  by_cases hother : other = token
  · subst hother
    simpa [setAssumption, setActivation] using h
  · simp [setAssumption, setActivation, hother]

/-- Exchanging an activation for one with the same set and context touches it only. -/
lemma touches_setActivation {a a' : AssumptionActivation} (hfound : p.activations[i]? = some a)
    (hset : a'.set = a.set) (hcontext : a'.context = a.context) :
    Touches p i a a' (p.setActivation i a') :=
  ⟨hfound, rfl, fun _ => rfl, rfl, rfl, hset, hcontext⟩

/-- A step of the constructor registers with the next token, which holds, or with none. -/
lemma construct_touches {allocated : Bool} (h : p.step (.construct i allocated) = some p') :
    ∃ a a', Touches p i a a' p' ∧
      (a'.subscriptionCount = a.subscriptionCount ∨
        (a'.subscriptionCount = a.subscriptionCount + 1 ∧
          ∃ d, a.set.dependencies[a.subscriptionCount]? = some d ∧
            (p.assumptions d.assumption).valid = true)) := by
  obtain ⟨a, hfound, hchange⟩ := Option.bind_eq_some_iff.mp h
  simp only [Option.ite_none_right_eq_some, Option.some.injEq] at hchange
  obtain ⟨-, rfl⟩ := hchange
  unfold construct
  cases hnext : a.set.dependencies[a.subscriptionCount]? with
  | none => exact ⟨a, _, touches_setActivation hfound rfl rfl, .inl rfl⟩
  | some d =>
      cases hvalid : (p.assumptions d.assumption).valid with
      | false =>
          simp only [Assumption.subscribe_invalid hvalid, setAssumption_self]
          exact ⟨a, _, touches_setActivation hfound rfl rfl, .inl rfl⟩
      | true =>
          cases allocated with
          | false =>
              simp only [Assumption.subscribe_exhausted hvalid, setAssumption_self]
              exact ⟨a, _, touches_setActivation hfound rfl rfl, .inl rfl⟩
          | true =>
              simp only [Assumption.subscribe_valid hvalid]
              refine ⟨a, _, ⟨hfound, rfl, ?_, rfl, rfl, rfl, rfl⟩, .inr ⟨rfl, d, hnext, hvalid⟩⟩
              intro token
              apply setAssumption_valid
              rfl

/-- The steps that move an activation from one stage to the next. -/
lemma mark_touches {e : AssumptionEvent} (he : e = .enter i ∨ e = .leave i ∨ e = .release i)
    (h : p.step e = some p') :
    ∃ a a', Touches p i a a' p' ∧ a'.subscriptionCount = a.subscriptionCount := by
  rcases he with rfl | rfl | rfl
  all_goals
    obtain ⟨a, hfound, hchange⟩ := Option.bind_eq_some_iff.mp h
    simp only [Option.ite_none_right_eq_some, Option.some.injEq] at hchange
    obtain ⟨-, rfl⟩ := hchange
    exact ⟨a, _, touches_setActivation hfound rfl rfl, rfl⟩

/-- A turn of the destructor touches its activation only. -/
lemma unsubscribe_touches (h : p.step (.unsubscribe i) = some p') :
    ∃ a a', Touches p i a a' p' := by
  obtain ⟨a, hfound, hchange⟩ := Option.bind_eq_some_iff.mp h
  simp only [Option.ite_none_right_eq_some, Option.some.injEq] at hchange
  obtain ⟨-, rfl⟩ := hchange
  unfold unsubscribe
  cases hcount : a.subscriptionCount with
  | zero => exact ⟨a, _, touches_setActivation hfound rfl rfl⟩
  | succ count =>
      cases hlast : a.set.dependencies[count]? with
      | none =>
          simp only [hlast]
          exact ⟨a, _, touches_setActivation hfound rfl rfl⟩
      | some d =>
          simp only [hlast]
          refine ⟨a, _, ⟨hfound, rfl, ?_, rfl, rfl, rfl, rfl⟩⟩
          intro token
          apply setAssumption_valid
          rfl

end UniJit.Runtime.AssumptionSystem

namespace UniJit.Jit

open UniJit.Ir UniJit.Lib UniJit.Lib.Transitions UniJit.Runtime

namespace InvocationSystem

/-- The invocations in progress own the activations of the protocol: each has its own, for its
context and its assumptions, and whoever is registered with a token is still in progress. -/
structure Linked (s : InvocationSystem) : Prop where
  owned : ∀ c, ∀ v ∈ s.calls c, ∀ i, v.activation = some i →
    ∃ a, s.protocol.activations[i]? = some a ∧ a.context = c ∧ a.set = v.code.assumptions
  distinct : ∀ c, ((s.calls c).filterMap (·.activation)).Nodup
  held : ∀ i a, s.protocol.activations[i]? = some a → a.subscribed ≠ [] →
    ∃ v ∈ s.calls a.context, v.activation = some i
  idle : ∀ c, ∀ v ∈ s.calls c, v.stage = .loaded → v.activation = none

lemma linked_start : Linked {} :=
  ⟨by simp, by simp, by simp, by simp⟩

/-- What a turn does to the activations. -/
inductive Effect (s : InvocationSystem) (c : ContextId) (v v' : Invocation) (p : AssumptionSystem) :
    Prop
  /-- It leaves them alone. -/
  | none (activation : v'.activation = v.activation)
      (activations : p.activations = s.protocol.activations)
      (assumptions : p.assumptions = s.protocol.assumptions)
      (invalidations : p.invalidations = s.protocol.invalidations)
  /-- It changes the one of the invocation. -/
  | own {p₀ : AssumptionSystem} {i : Nat} {a a' : AssumptionActivation}
      (activation : v.activation = some i) (same : v'.activation = v.activation)
      (activations : p₀.activations = s.protocol.activations)
      (assumptions : p₀.assumptions = s.protocol.assumptions)
      (invalidations : p₀.invalidations = s.protocol.invalidations)
      (touches : AssumptionSystem.Touches p₀ i a a' p)
  /-- It makes one for the invocation. -/
  | new (stage : v.stage = .loaded)
      (activation : v'.activation = some s.protocol.activations.length)
      (activations : p.activations =
        s.protocol.activations ++ [{ set := v.code.assumptions, context := c }])
      (assumptions : p.assumptions = s.protocol.assumptions)
      (invalidations : p.invalidations = s.protocol.invalidations)

variable {s s' : InvocationSystem} {c : ContextId} {e : InvocationEvent}

/-- A step of the protocol on an invocation's behalf has an effect on it only. -/
lemma effect_protocolStep {v v' : Invocation} {p₀ p : AssumptionSystem} {e : Nat → AssumptionEvent}
    (hstep : protocolStep p₀ v.activation e = some p)
    (he : ∀ i, e i = .enter i ∨ e i = .leave i ∨ e i = .release i)
    (hactivations : p₀.activations = s.protocol.activations)
    (hassumptions : p₀.assumptions = s.protocol.assumptions)
    (hinvalidations : p₀.invalidations = s.protocol.invalidations)
    (hsame : v'.activation = v.activation) : Effect s c v v' p := by
  cases hactivation : v.activation with
  | none =>
      rw [hactivation] at hstep
      obtain rfl := Option.some.inj hstep
      exact .none hsame hactivations hassumptions hinvalidations
  | some i =>
      rw [hactivation] at hstep
      obtain ⟨a, a', htouches, -⟩ := AssumptionSystem.mark_touches (he i) hstep
      exact .own hactivation hsame hactivations hassumptions hinvalidations htouches

/-- A turn has an effect on its own invocation only. -/
lemma Turn.effect {v v' : Invocation} {x : NativeContext} {p : AssumptionSystem}
    (h : Turn s c v e v' x p) : Effect s c v v' p := by
  cases h with
  | prepare stage objects free => exact .none rfl rfl rfl rfl
  | activate stage objects protocol =>
      obtain rfl := Option.some.inj protocol
      exact .new stage rfl rfl rfl rfl
  | construct stage activation protocol =>
      obtain ⟨a, a', htouches, -⟩ := AssumptionSystem.construct_touches protocol
      exact .own activation rfl rfl rfl rfl htouches
  | exhaust stage activation found failed protocol =>
      obtain ⟨a, a', htouches, -⟩ := AssumptionSystem.mark_touches (.inr (.inr rfl)) protocol
      exact .own activation rfl rfl rfl rfl htouches
  | reject stage activation found invalid dependency protocol =>
      obtain ⟨a, a', htouches, -⟩ := AssumptionSystem.mark_touches (.inr (.inr rfl)) protocol
      exact .own activation rfl rfl rfl rfl htouches
  | enter stage activation protocol =>
      obtain ⟨a, a', htouches, -⟩ := AssumptionSystem.mark_touches (.inl rfl) protocol
      exact .own activation rfl rfl rfl rfl htouches
  | poll stage => exact .none rfl rfl rfl rfl
  | exitNative stage reason protocol =>
      exact effect_protocolStep protocol (fun _ => .inr (.inl rfl)) rfl rfl rfl rfl
  | returnNative stage protocol =>
      exact effect_protocolStep protocol (fun _ => .inr (.inl rfl)) rfl rfl rfl rfl
  | check stage dependency valid => exact .none rfl rfl rfl rfl
  | deoptimize stage dependency invalid protocol =>
      exact effect_protocolStep protocol (fun _ => .inr (.inr rfl)) rfl rfl rfl rfl
  | complete stage last protocol =>
      exact effect_protocolStep protocol (fun _ => .inr (.inr rfl)) rfl rfl rfl rfl
  | release stage activation protocol =>
      obtain ⟨a, a', htouches⟩ := AssumptionSystem.unsubscribe_touches protocol
      exact .own activation rfl rfl rfl rfl htouches

/-- A turn leaves the activations of other invocations alone. -/
lemma Effect.other {v v' : Invocation} {p : AssumptionSystem} (h : Effect s c v v' p) {j : Nat}
    {a : AssumptionActivation} (hfound : s.protocol.activations[j]? = some a)
    (hne : v.activation ≠ some j) : p.activations[j]? = some a := by
  cases h with
  | none activation activations assumptions invalidations => rw [activations, hfound]
  | @own p₀ i a a' activation same activations assumptions invalidations touches =>
      have hij : i ≠ j := by
        rintro rfl
        exact hne activation
      rw [touches.activations, List.getElem?_set_ne hij, activations, hfound]
  | new stage activation activations assumptions invalidations =>
      have hlt := (List.getElem?_eq_some_iff.mp hfound).1
      rw [activations, List.getElem?_append_left hlt, hfound]

/-- After a turn, an activation is the one of the invocation, or it was there. -/
lemma Effect.back {v v' : Invocation} {p : AssumptionSystem} (h : Effect s c v v' p) {j : Nat}
    {b : AssumptionActivation} (hfound : p.activations[j]? = some b) (hheld : b.subscribed ≠ []) :
    v'.activation = some j ∨ s.protocol.activations[j]? = some b := by
  cases h with
  | none activation activations assumptions invalidations => exact .inr (activations ▸ hfound)
  | @own p₀ i a a' activation same activations assumptions invalidations touches =>
      rw [touches.activations] at hfound
      rcases getElem?_set_cases hfound with ⟨rfl, rfl⟩ | hfound
      · exact .inl (same.trans activation)
      · exact .inr (activations ▸ hfound)
  | new stage activation activations assumptions invalidations =>
      rw [activations, List.getElem?_append] at hfound
      split_ifs at hfound
      · exact .inr hfound
      · obtain rfl := List.mem_singleton.mp (List.mem_of_getElem? hfound)
        simp [AssumptionActivation.subscribed] at hheld

/-- The activation of the invocation itself after a turn. -/
lemma Effect.self {v v' : Invocation} {p : AssumptionSystem} (h : Effect s c v v' p) {i : Nat}
    (howned : ∀ i, v.activation = some i →
      ∃ a, s.protocol.activations[i]? = some a ∧ a.context = c ∧ a.set = v.code.assumptions)
    (hactivation : v'.activation = some i) :
    ∃ a, p.activations[i]? = some a ∧ a.context = c ∧ a.set = v.code.assumptions := by
  cases h with
  | none activation activations assumptions invalidations =>
      rw [activations]
      exact howned i (activation ▸ hactivation)
  | @own p₀ k a a' activation same activations assumptions invalidations touches =>
      obtain rfl : k = i := Option.some.inj ((same.trans activation).symm.trans hactivation)
      obtain ⟨b, hb, hcontext, hset⟩ := howned k activation
      obtain rfl : a = b := Option.some.inj ((activations ▸ touches.found).symm.trans hb)
      refine ⟨a', ?_, touches.context.trans hcontext, touches.set.trans hset⟩
      rw [touches.activations, List.getElem?_set_self]
      exact (List.getElem?_eq_some_iff.mp touches.found).1
  | new stage activation activations assumptions invalidations =>
      obtain rfl := Option.some.inj (activation.symm.trans hactivation)
      refine ⟨{ set := v.code.assumptions, context := c }, ?_, rfl, rfl⟩
      rw [activations]
      simp

/-- Two calls of a context have different activations. -/
lemma Linked.activation_ne {v w : Invocation} {rest : List Invocation} (h : s.Linked)
    (hcalls : s.calls c = v :: rest) (hw : w ∈ rest) {j : Nat} (hj : w.activation = some j) :
    v.activation ≠ some j := by
  intro hv
  have hnodup := h.distinct c
  rw [hcalls, List.filterMap_cons_some hv, List.nodup_cons] at hnodup
  exact hnodup.1 (List.mem_filterMap.mpr ⟨w, hw, hj⟩)

/-- Invocations on different contexts have different activations. -/
lemma Linked.activation_ne_of_ne {v w : Invocation} {c' : ContextId} (h : s.Linked)
    (hv : v ∈ s.calls c) (hw : w ∈ s.calls c') (hne : c' ≠ c) {j : Nat}
    (hj : w.activation = some j) : v.activation ≠ some j := by
  intro hvj
  obtain ⟨a, ha, rfl, -⟩ := h.owned c v hv j hvj
  obtain ⟨b, hb, rfl, -⟩ := h.owned c' w hw j hj
  obtain rfl := Option.some.inj (ha.symm.trans hb)
  exact hne rfl

/-- A turn keeps the links. -/
lemma Linked.turn {v v' : Invocation} {rest : List Invocation} {x : NativeContext}
    {p : AssumptionSystem} (h : s.Linked) (hcalls : s.calls c = v :: rest)
    (hturn : Turn s c v e v' x p) :
    Linked (({ s with protocol := p }.setContext c x).setStack c (v' :: rest)) := by
  have heffect := hturn.effect
  have hcode : v'.code = v.code := by
    cases hturn <;> rfl
  have hstage : v'.stage ≠ .loaded := by
    cases hturn <;> simp_all
  have hv : v ∈ s.calls c := by simp [hcalls]
  have hrest : ∀ w ∈ rest, w ∈ s.calls c := by
    intro w hw
    rw [hcalls]
    exact List.mem_cons_of_mem v hw
  refine ⟨?_, ?_, ?_, ?_⟩
  · intro c' w hw j hj
    by_cases hc : c' = c
    · subst hc
      simp only [setStack, Function.update_self, List.mem_cons] at hw
      rcases hw with rfl | hw
      · rw [hcode]
        exact heffect.self (h.owned c' v hv) hj
      · obtain ⟨a, ha, hcontext, hset⟩ := h.owned c' w (hrest w hw) j hj
        exact ⟨a, heffect.other ha (h.activation_ne hcalls hw hj), hcontext, hset⟩
    · simp only [setStack, setContext, Function.update_of_ne hc] at hw
      obtain ⟨a, ha, hcontext, hset⟩ := h.owned c' w hw j hj
      exact ⟨a, heffect.other ha (h.activation_ne_of_ne hv hw hc hj), hcontext, hset⟩
  · intro c'
    by_cases hc : c' = c
    · subst hc
      simp only [setStack, Function.update_self]
      have hnodup := h.distinct c'
      rw [hcalls] at hnodup
      cases heffect with
      | none activation activations assumptions invalidations =>
          simpa only [List.filterMap_cons, activation] using hnodup
      | own activation same activations assumptions invalidations touches =>
          simpa only [List.filterMap_cons, same] using hnodup
      | new stage activation activations assumptions invalidations =>
          rw [List.filterMap_cons_none (h.idle c' v hv stage)] at hnodup
          rw [List.filterMap_cons_some activation, List.nodup_cons]
          refine ⟨?_, hnodup⟩
          intro hmem
          obtain ⟨w, hw, hj⟩ := List.mem_filterMap.mp hmem
          obtain ⟨a, ha, -⟩ := h.owned c' w (hrest w hw) _ hj
          simp at ha
    · simpa only [setStack, setContext, Function.update_of_ne hc] using h.distinct c'
  · intro j b hb hheld
    rcases heffect.back hb hheld with hactivation | hb'
    · obtain ⟨a, ha, hcontext, -⟩ := heffect.self (h.owned c v hv) hactivation
      obtain rfl : a = b := Option.some.inj (ha.symm.trans hb)
      refine ⟨v', ?_, hactivation⟩
      rw [hcontext]
      simp [setStack]
    · obtain ⟨w, hw, hj⟩ := h.held j b hb' hheld
      by_cases hc : b.context = c
      · rw [hc] at hw ⊢
        rw [hcalls] at hw
        simp only [setStack, Function.update_self]
        rcases List.mem_cons.mp hw with rfl | hw
        · refine ⟨v', by simp, ?_⟩
          cases heffect with
          | none activation activations assumptions invalidations => exact activation.trans hj
          | own activation same activations assumptions invalidations touches => exact same.trans hj
          | new stage activation activations assumptions invalidations =>
              rw [h.idle c w hv stage] at hj
              simp at hj
        · exact ⟨w, List.mem_cons_of_mem v' hw, hj⟩
      · refine ⟨w, ?_, hj⟩
        simpa only [setStack, setContext, Function.update_of_ne hc] using hw
  · intro c' w hw hloaded
    by_cases hc : c' = c
    · subst hc
      simp only [setStack, Function.update_self, List.mem_cons] at hw
      rcases hw with rfl | hw
      · exact absurd hloaded hstage
      · exact h.idle c' w (hrest w hw) hloaded
    · simp only [setStack, setContext, Function.update_of_ne hc] at hw
      exact h.idle c' w hw hloaded

/-- A change of the stack of one context. -/
lemma Linked.setStack {calls : List Invocation} (h : s.Linked)
    (howned : ∀ w ∈ calls, ∀ i, w.activation = some i →
      ∃ a, s.protocol.activations[i]? = some a ∧ a.context = c ∧ a.set = w.code.assumptions)
    (hdistinct : (calls.filterMap (·.activation)).Nodup)
    (hheld : ∀ v ∈ s.calls c, ∀ i a, v.activation = some i →
      s.protocol.activations[i]? = some a → a.subscribed ≠ [] → ∃ w ∈ calls, w.activation = some i)
    (hidle : ∀ w ∈ calls, w.stage = .loaded → w.activation = none) :
    Linked (s.setStack c calls) := by
  refine ⟨?_, ?_, ?_, ?_⟩
  · intro c' w hw
    by_cases hc : c' = c
    · subst hc
      exact howned w (by simpa [InvocationSystem.setStack] using hw)
    · exact h.owned c' w (by simpa [InvocationSystem.setStack, hc] using hw)
  · intro c'
    by_cases hc : c' = c
    · subst hc
      simpa [InvocationSystem.setStack] using hdistinct
    · simpa [InvocationSystem.setStack, hc] using h.distinct c'
  · intro i a ha hsubscribed
    obtain ⟨v, hv, hactivation⟩ := h.held i a ha hsubscribed
    by_cases hc : a.context = c
    · rw [hc] at hv ⊢
      obtain ⟨w, hw, hi⟩ := hheld v hv i a hactivation ha hsubscribed
      exact ⟨w, by simpa [InvocationSystem.setStack] using hw, hi⟩
    · exact ⟨v, by simpa [InvocationSystem.setStack, hc] using hv, hactivation⟩
  · intro c' w hw
    by_cases hc : c' = c
    · subst hc
      exact hidle w (by simpa [InvocationSystem.setStack] using hw)
    · exact h.idle c' w (by simpa [InvocationSystem.setStack, hc] using hw)

/-- An invocation that begins has no activation. -/
lemma beginInvocation_activation {tables : FastCallTables} {f : CompiledCode} {argCount : Nat}
    {argsNull : Bool} {v : Invocation}
    (h : beginInvocation tables f argCount argsNull = .ok v) :
    v.activation = none ∧ v.stage = .loaded := by
  rcases beginInvocation_eq_ok h with ⟨-, rfl⟩ | ⟨-, -, rfl⟩
  · exact ⟨rfl, rfl⟩
  · exact ⟨rfl, rfl⟩

/-- A new call keeps the links. -/
lemma Linked.invoke {v : Invocation} (h : s.Linked) (hv : v.activation = none) :
    Linked (s.setStack c (v :: s.calls c)) := by
  apply h.setStack
  · intro w hw i hi
    rcases List.mem_cons.mp hw with rfl | hw
    · simp [hv] at hi
    · exact h.owned c w hw i hi
  · rw [List.filterMap_cons_none hv]
    exact h.distinct c
  · intro w hw i a hi _ _
    exact ⟨w, List.mem_cons_of_mem v hw, hi⟩
  · intro w hw hloaded
    rcases List.mem_cons.mp hw with rfl | hw
    · exact hv
    · exact h.idle c w hw hloaded

/-- An invocation without registrations is taken off the stack. -/
lemma Linked.pop {v : Invocation} {rest : List Invocation} (h : s.Linked)
    (hcalls : s.calls c = v :: rest)
    (hquiet : ∀ i a, v.activation = some i → s.protocol.activations[i]? = some a →
      a.subscribed = []) : Linked (s.setStack c rest) := by
  have hrest : ∀ w ∈ rest, w ∈ s.calls c := by
    intro w hw
    rw [hcalls]
    exact List.mem_cons_of_mem v hw
  apply h.setStack
  · exact fun w hw i hi => h.owned c w (hrest w hw) i hi
  · have hdistinct := h.distinct c
    rw [hcalls] at hdistinct
    exact hdistinct.sublist ((List.sublist_cons_self v rest).filterMap _)
  · intro w hw i a hi ha hheld
    rw [hcalls] at hw
    rcases List.mem_cons.mp hw with rfl | hw
    · exact absurd (hquiet i a hi ha) hheld
    · exact ⟨w, hw, hi⟩
  · exact fun w hw => h.idle c w (hrest w hw)

/-- A call that returns keeps the links. -/
lemma Linked.leave {v : Invocation} {rest : List Invocation} (h : s.Linked)
    (hcalls : s.calls c = v :: rest)
    (hquiet : ∀ i a, v.activation = some i → s.protocol.activations[i]? = some a →
      a.subscribed = []) : Linked (s.leave c rest) := by
  have hpop := h.pop hcalls hquiet
  cases rest with
  | nil => exact hpop
  | cons outer rest =>
      have hset : (s.setStack c (outer :: rest)).setStack c
          ({ outer with inner := (s.contexts c).exitRecord } :: rest) =
          s.leave c (outer :: rest) := by
        simp [InvocationSystem.leave, InvocationSystem.setStack]
      rw [← hset]
      have hcalls' : (s.setStack c (outer :: rest)).calls c = outer :: rest := by
        simp [InvocationSystem.setStack]
      apply hpop.setStack
      · intro w hw i hi
        rcases List.mem_cons.mp hw with rfl | hw
        · exact hpop.owned c outer (by simp [hcalls']) i hi
        · exact hpop.owned c w (by simp [hcalls', hw]) i hi
      · have hdistinct := hpop.distinct c
        rw [hcalls'] at hdistinct
        simpa only [List.filterMap_cons] using hdistinct
      · intro w hw i a hi _ _
        rw [hcalls'] at hw
        rcases List.mem_cons.mp hw with rfl | hw
        · exact ⟨_, List.mem_cons_self, hi⟩
        · exact ⟨w, List.mem_cons_of_mem _ hw, hi⟩
      · intro w hw hloaded
        rcases List.mem_cons.mp hw with rfl | hw
        · exact hpop.idle c outer (by simp [hcalls']) hloaded
        · exact hpop.idle c w (by simp [hcalls', hw]) hloaded

/-- What happens outside leaves the activations alone. -/
lemma Outside.activations {p p' : AssumptionSystem} (h : Outside p e p') :
    p'.activations = p.activations := by
  cases h with
  | invalidate step =>
      obtain ⟨-, rfl⟩ := AssumptionSystem.invalidate_eq_some step
      rfl
  | requested step =>
      obtain ⟨inv, c, rest, -, -, rfl⟩ := AssumptionSystem.requestWakeup_eq_some step
      rfl
  | returned step =>
      obtain ⟨inv, hfound, hchange⟩ := Option.bind_eq_some_iff.mp step
      simp only [Option.ite_none_right_eq_some, Option.some.injEq] at hchange
      obtain ⟨-, rfl⟩ := hchange
      rfl
  | userInterrupt c requested => rfl

/-- An activation that was released holds no token. -/
lemma subscribed_of_released (hregistered : s.protocol.Registered) {i : Nat}
    {a : AssumptionActivation} (ha : s.protocol.activations[i]? = some a)
    (hreleased : a.stage = .released) : a.subscribed = [] := by
  have hsound := hregistered.sound a (List.mem_of_getElem? ha)
  simp [AssumptionActivation.subscribed, hsound.released hreleased]

/-- **Step.** Every move keeps the invocations and the activations together. -/
lemma Linked.move (h : s.Linked) (hregistered : s.protocol.Registered) (hmove : Move s e s') :
    s'.Linked := by
  cases hmove with
  | rejected c f argCount argsNull => exact h
  | invoke idle begun => exact h.invoke (beginInvocation_activation begun).1
  | @drop c v rest calls stage =>
      refine h.pop calls ?_
      intro i a hi
      rw [h.idle c v (by simp [calls]) stage] at hi
      simp at hi
  | turn calls turn => exact h.turn calls turn
  | leave calls stage released =>
      refine h.leave calls ?_
      intro i a hi ha
      exact subscribed_of_released hregistered ha (released i a hi ha)
  | outside outside =>
      have hactivations := outside.activations
      refine ⟨?_, h.distinct, ?_, h.idle⟩
      · simpa only [hactivations] using h.owned
      · simpa only [hactivations] using h.held
  | fastCall step => exact ⟨h.owned, h.distinct, h.held, h.idle⟩
  | bind c regions objects oracles => exact ⟨h.owned, h.distinct, h.held, h.idle⟩

end InvocationSystem

end UniJit.Jit
