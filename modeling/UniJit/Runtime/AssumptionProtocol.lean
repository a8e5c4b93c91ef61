import UniJit.Runtime.Assumption
import UniJit.Lib.Transitions
import UniJit.Lib.Updates

/-!
# The invalidation protocol

Any number of threads activate assumption sets, run native code under them and release them, while
others invalidate tokens. `subscribe`, `unsubscribe` and `invalidate` lock the mutex of the token;
whether a token is valid, and the interrupt word of a context, are read and written without it. So a
run of the protocol is an interleaving of these steps:

* an activation registers its context with its dependencies, one step for each, and stops at the
  first that is invalid or cannot be registered;
* native code runs between `enter` and `leave`, under an activation that registered with all of
  them;
* the release of an activation removes its registrations, one step for each, the last one first;
* `invalidate` closes the token in one step, requests the wake-up of each registered context in a
  step of its own, waits, and returns in another step once no registration is left. It holds the
  mutex until the last request, so the registrations of the token stay as they are up to then.

The interrupt word of a context has a bit for the user and one for the protocol.
-/

namespace UniJit.Runtime

open UniJit.Lib UniJit.Lib.Transitions

/-! ## State -/

/-- The life of an activation. -/
inductive ActivationStage
  | constructing | constructed | running | releasing | released
  deriving DecidableEq, Repr

/-- One activation with what its constructor has registered. -/
structure AssumptionActivation where
  set : AssumptionSet
  context : ContextId
  subscriptionCount : Nat := 0
  /-- The position of the dependency that was found invalid. -/
  invalidDependency : Option Nat := none
  status : Except Status Unit := .ok ()
  stage : ActivationStage := .constructing

namespace AssumptionActivation

/-- The activation may run. -/
def ok (a : AssumptionActivation) : Bool :=
  a.invalidDependency = none ∧ (a.status matches .ok ())

/-- The token that the next turn of the constructor locks. -/
def nextToken (a : AssumptionActivation) : Option Token :=
  (a.set.dependencies[a.subscriptionCount]?).map (·.assumption)

/-- The token that the next turn of the destructor locks. -/
def lastToken (a : AssumptionActivation) : Option Token :=
  match a.subscriptionCount with
  | 0 => none
  | count + 1 => (a.set.dependencies[count]?).map (·.assumption)

/-- The tokens an activation is registered with. -/
def subscribed (a : AssumptionActivation) : List Token :=
  (a.set.dependencies.take a.subscriptionCount).map (·.assumption)

/-- What holds of an activation at any time, given the tokens that still hold. -/
structure Sound (valid : Token → Bool) (a : AssumptionActivation) : Prop where
  bounded : a.subscriptionCount ≤ a.set.dependencies.length
  fresh : a.stage = .constructing → a.ok
  runs : a.stage = .running → a.ok
  /-- An activation that succeeded is registered with all of its dependencies. -/
  complete : a.ok → a.stage = .constructed ∨ a.stage = .running →
    a.subscriptionCount = a.set.dependencies.length
  reported : ∀ k, a.invalidDependency = some k →
    ∃ d, a.set.dependencies[k]? = some d ∧ valid d.assumption = false
  released : a.stage = .released → a.subscriptionCount = 0
  exhausted : ∀ status, a.status = .error status → status.code = .resourceExhausted

/-- The outcome of an activation that did not get past the dependency at `position`: it found a
dependency up to that one invalid, or ran out of memory on the way there. -/
def Rejects (a : AssumptionActivation) (position : Nat) : Prop :=
  (∃ k ≤ position, a.invalidDependency = some k) ∨
    ∃ status, a.status = .error status ∧ status.code = .resourceExhausted

variable {a : AssumptionActivation}

/-- An activation that rejects a dependency may not run. -/
lemma Rejects.not_ok {position : Nat} (h : a.Rejects position) : a.ok = false := by
  rcases h with ⟨k, -, hk⟩ | ⟨status, hstatus, -⟩
  · simp [ok, hk]
  · simp [ok, hstatus]

/-- An activation stays sound as assumptions become invalid only. -/
lemma Sound.mono {valid valid' : Token → Bool} (h : a.Sound valid)
    (hclosed : ∀ token, valid token = false → valid' token = false) : a.Sound valid' := by
  refine ⟨h.bounded, h.fresh, h.runs, h.complete, ?_, h.released, h.exhausted⟩
  intro k hk
  obtain ⟨d, hd, hinvalid⟩ := h.reported k hk
  exact ⟨d, hd, hclosed _ hinvalid⟩

/-- A registration adds the next token, which was not there. -/
lemma subscribed_succ {d : AssumptionDependency} {count : Nat}
    (hnext : a.set.dependencies[count]? = some d) :
    { a with subscriptionCount := count + 1 }.subscribed =
        { a with subscriptionCount := count }.subscribed ++ [d.assumption] ∧
      d.assumption ∉ { a with subscriptionCount := count }.subscribed := by
  have hlt : count < a.set.dependencies.length := (List.getElem?_eq_some_iff.mp hnext).1
  have heq : { a with subscriptionCount := count + 1 }.subscribed =
      { a with subscriptionCount := count }.subscribed ++ [d.assumption] := by
    simp [subscribed, List.take_add_one, hnext]
  refine ⟨heq, ?_⟩
  have hnodup : ({ a with subscriptionCount := count + 1 }.subscribed).Nodup :=
    a.set.tokens_nodup.sublist ((List.take_sublist _ _).map _)
  rw [heq, List.nodup_append] at hnodup
  intro hmem
  exact hnodup.2.2 _ hmem _ (by simp) rfl

end AssumptionActivation

/-- A call of `invalidate` and how far it has got. -/
structure Invalidation where
  token : Token
  /-- What `invalidate` returns: whether it was this call that closed the token. -/
  changed : Bool
  /-- The registered contexts whose wake-up it has requested. -/
  requested : List ContextId := []
  /-- The registered contexts that its loop has not come to yet. It holds the mutex of the token
  until there are none. -/
  pending : List ContextId := []
  returned : Bool := false
  deriving DecidableEq, Repr

/-- `kInterruptRequested`. -/
def interruptBit : BitVec 64 := 1

/-- `kDeoptimizationWakeup`. -/
def wakeupBit : BitVec 64 := 2

/-- The assumptions, the interrupt words, the activations and the invalidations under way. -/
structure AssumptionSystem where
  assumptions : Token → Assumption := fun _ => {}
  /-- The interrupt word of each context. -/
  interrupts : ContextId → BitVec 64
  activations : List AssumptionActivation := []
  invalidations : List Invalidation := []

/-! ## Steps -/

/-- One atomic section of an activation or an invalidation. -/
inductive AssumptionEvent
  | activate (set : AssumptionSet) (context : ContextId)
  /-- One turn of the constructor; `allocated` says whether a registration finds memory. -/
  | construct (activation : Nat) (allocated : Bool)
  | enter (activation : Nat)
  | leave (activation : Nat)
  | release (activation : Nat)
  | unsubscribe (activation : Nat)
  | invalidate (token : Token)
  /-- One turn of the loop of `invalidate` over the registered contexts. -/
  | requestWakeup (invalidation : Nat)
  | returnInvalidate (invalidation : Nat)
  /-- The user sets or clears the interrupt of a context. -/
  | userInterrupt (context : ContextId) (requested : Bool)

namespace AssumptionSystem

/-- Exchanges one assumption. -/
def setAssumption (s : AssumptionSystem) (token : Token) (a : Assumption) : AssumptionSystem :=
  { s with assumptions := Function.update s.assumptions token a }

/-- Exchanges one activation. -/
def setActivation (s : AssumptionSystem) (i : Nat) (a : AssumptionActivation) : AssumptionSystem :=
  { s with activations := s.activations.set i a }

/-- One turn of the constructor's loop. -/
def construct (s : AssumptionSystem) (i : Nat) (a : AssumptionActivation) (allocated : Bool) :
    AssumptionSystem :=
  match a.set.dependencies[a.subscriptionCount]? with
  | none => s.setActivation i { a with stage := .constructed }
  | some dependency =>
      let (result, assumption) :=
        (s.assumptions dependency.assumption).subscribe a.context allocated
      let s := s.setAssumption dependency.assumption assumption
      match result with
      | .subscribed =>
          s.setActivation i { a with subscriptionCount := a.subscriptionCount + 1 }
      | .invalid =>
          s.setActivation i { a with
            invalidDependency := some a.subscriptionCount, stage := .constructed }
      | .resourceExhausted =>
          s.setActivation i { a with
            status := .error ⟨.resourceExhausted,
              "unable to register an active assumption dependency", dependency.site⟩
            stage := .constructed }

/-- One turn of the destructor's loop. -/
def unsubscribe (s : AssumptionSystem) (i : Nat) (a : AssumptionActivation) : AssumptionSystem :=
  match a.subscriptionCount with
  | 0 => s.setActivation i { a with stage := .released }
  | count + 1 =>
      let s := match a.set.dependencies[count]? with
        | none => s
        | some dependency =>
            s.setAssumption dependency.assumption
              ((s.assumptions dependency.assumption).unsubscribe a.context)
      s.setActivation i { a with subscriptionCount := count }

/-- Whether the mutex of a token is held from one step to the next: an invalidation of it has
requests to make. -/
def locked (s : AssumptionSystem) (token : Token) : Bool :=
  s.invalidations.any fun inv => inv.token = token ∧ inv.pending ≠ []

/-- Close a token. The wake-ups of the registered contexts are still to be requested. -/
def invalidate (s : AssumptionSystem) (token : Token) : AssumptionSystem :=
  let a := s.assumptions token
  { s.setAssumption token { a with valid := false } with
    invalidations := s.invalidations ++
      [{ token := token, changed := a.valid, pending := a.activeContexts }] }

/-- `request_deoptimization_wakeup` on the next registered context. -/
def requestWakeup (s : AssumptionSystem) (j : Nat) (inv : Invalidation) (c : ContextId)
    (rest : List ContextId) : AssumptionSystem :=
  { s with
    interrupts := Function.update s.interrupts c (s.interrupts c ||| wakeupBit)
    invalidations :=
      s.invalidations.set j { inv with requested := inv.requested ++ [c], pending := rest } }

/-- Sets or clears the user's bit of a context. -/
def setUserInterrupt (s : AssumptionSystem) (context : ContextId) (requested : Bool) :
    AssumptionSystem :=
  let word := s.interrupts context
  let changed := if requested then word ||| interruptBit else word &&& ~~~interruptBit
  { s with interrupts := Function.update s.interrupts context changed }

/-- The step of an event on an activation, if it is enabled. -/
def stepActivation (s : AssumptionSystem) (i : Nat)
    (change : AssumptionActivation → Option AssumptionSystem) : Option AssumptionSystem := do
  let a ← s.activations[i]?
  change a

/-- What an atomic section does, when it is its turn. -/
def step (s : AssumptionSystem) : AssumptionEvent → Option AssumptionSystem
  | .activate set context =>
      some { s with activations := s.activations ++ [{ set := set, context := context }] }
  | .construct i allocated => s.stepActivation i fun a =>
      if a.stage = .constructing ∧ a.nextToken.all (¬ s.locked ·) then
        some (s.construct i a allocated)
      else none
  | .enter i => s.stepActivation i fun a =>
      if a.stage = .constructed ∧ a.ok then some (s.setActivation i { a with stage := .running })
      else none
  | .leave i => s.stepActivation i fun a =>
      if a.stage = .running then some (s.setActivation i { a with stage := .constructed })
      else none
  | .release i => s.stepActivation i fun a =>
      if a.stage = .constructed then some (s.setActivation i { a with stage := .releasing })
      else none
  | .unsubscribe i => s.stepActivation i fun a =>
      if a.stage = .releasing ∧ a.lastToken.all (¬ s.locked ·) then some (s.unsubscribe i a)
      else none
  | .invalidate token => if s.locked token then none else some (s.invalidate token)
  | .requestWakeup j => do
      let inv ← s.invalidations[j]?
      match inv.pending with
      | [] => none
      | c :: rest => some (s.requestWakeup j inv c rest)
  | .returnInvalidate j => do
      let inv ← s.invalidations[j]?
      if ¬ inv.returned ∧ ¬ s.locked inv.token ∧
          (s.assumptions inv.token).activeContexts = [] then
        some { s with invalidations := s.invalidations.set j { inv with returned := true } }
      else none
  | .userInterrupt context requested => some (s.setUserInterrupt context requested)

/-! ## What a step can do -/

/-- The changes of an activation that leave its registrations as they are. -/
inductive Marks (s : AssumptionSystem) (a : AssumptionActivation) : AssumptionActivation → Prop
  | finished (stage : a.stage = .constructing)
      (last : a.set.dependencies[a.subscriptionCount]? = none) :
      Marks s a { a with stage := .constructed }
  | invalid {d : AssumptionDependency} (stage : a.stage = .constructing)
      (next : a.set.dependencies[a.subscriptionCount]? = some d)
      (closed : (s.assumptions d.assumption).valid = false) :
      Marks s a { a with invalidDependency := some a.subscriptionCount, stage := .constructed }
  | exhausted {status : Status} (stage : a.stage = .constructing)
      (code : status.code = .resourceExhausted) :
      Marks s a { a with status := .error status, stage := .constructed }
  | entered (stage : a.stage = .constructed) (ok : a.ok) : Marks s a { a with stage := .running }
  | left (stage : a.stage = .running) : Marks s a { a with stage := .constructed }
  | releasing (stage : a.stage = .constructed) : Marks s a { a with stage := .releasing }
  | released (stage : a.stage = .releasing) (empty : a.subscriptionCount = 0) :
      Marks s a { a with stage := .released }

/-- The moves of the protocol. -/
inductive Move (s : AssumptionSystem) : AssumptionSystem → Prop
  | activate (set : AssumptionSet) (context : ContextId) :
      Move s { s with activations := s.activations ++ [{ set := set, context := context }] }
  | mark {i : Nat} {a a' : AssumptionActivation} (found : s.activations[i]? = some a)
      (marks : Marks s a a') : Move s (s.setActivation i a')
  | subscribe {i : Nat} {a : AssumptionActivation} {d : AssumptionDependency}
      (found : s.activations[i]? = some a) (stage : a.stage = .constructing)
      (next : a.set.dependencies[a.subscriptionCount]? = some d)
      (valid : (s.assumptions d.assumption).valid = true)
      (free : s.locked d.assumption = false) :
      Move s ((s.setAssumption d.assumption { s.assumptions d.assumption with
        activeContexts := (s.assumptions d.assumption).activeContexts ++ [a.context] }).setActivation
          i { a with subscriptionCount := a.subscriptionCount + 1 })
  | unsubscribe {i count : Nat} {a : AssumptionActivation} {d : AssumptionDependency}
      (found : s.activations[i]? = some a) (stage : a.stage = .releasing)
      (held : a.subscriptionCount = count + 1) (last : a.set.dependencies[count]? = some d)
      (free : s.locked d.assumption = false) :
      Move s ((s.setAssumption d.assumption
        ((s.assumptions d.assumption).unsubscribe a.context)).setActivation
          i { a with subscriptionCount := count })
  | invalidate (token : Token) (free : s.locked token = false) : Move s (s.invalidate token)
  | requested {j : Nat} {inv : Invalidation} {c : ContextId} {rest : List ContextId}
      (found : s.invalidations[j]? = some inv) (pending : inv.pending = c :: rest) :
      Move s (s.requestWakeup j inv c rest)
  | returned {j : Nat} {inv : Invalidation} (found : s.invalidations[j]? = some inv)
      (quiet : (s.assumptions inv.token).activeContexts = []) :
      Move s { s with invalidations := s.invalidations.set j { inv with returned := true } }
  | userInterrupt (context : ContextId) (requested : Bool) :
      Move s (s.setUserInterrupt context requested)

/-- Exchanging an assumption for itself changes nothing. -/
lemma setAssumption_self (s : AssumptionSystem) (token : Token) :
    s.setAssumption token (s.assumptions token) = s := by
  simp [setAssumption]

/-- An activation is registered with no more tokens than its set has. -/
def Bounded (s : AssumptionSystem) : Prop :=
  ∀ a ∈ s.activations, a.subscriptionCount ≤ a.set.dependencies.length

/-- A turn of the constructor marks the activation or registers its context. -/
lemma construct_move {s : AssumptionSystem} {i : Nat} {a : AssumptionActivation}
    (hfound : s.activations[i]? = some a) (hstage : a.stage = .constructing)
    (hfree : a.nextToken.all (¬ s.locked ·) = true) (allocated : Bool) :
    Move s (s.construct i a allocated) := by
  unfold construct
  cases hnext : a.set.dependencies[a.subscriptionCount]? with
  | none => exact .mark hfound (.finished hstage hnext)
  | some d =>
      cases hvalid : (s.assumptions d.assumption).valid with
      | false =>
          simp only [Assumption.subscribe_invalid hvalid, setAssumption_self]
          exact .mark hfound (.invalid hstage hnext hvalid)
      | true =>
          cases allocated with
          | false =>
              simp only [Assumption.subscribe_exhausted hvalid, setAssumption_self]
              exact .mark hfound (.exhausted hstage rfl)
          | true =>
              simp only [Assumption.subscribe_valid hvalid]
              refine .subscribe hfound hstage hnext hvalid ?_
              simpa [AssumptionActivation.nextToken, hnext] using hfree

/-- A turn of the destructor takes one registration back. -/
lemma unsubscribe_move {s : AssumptionSystem} (hbounded : s.Bounded) {i : Nat}
    {a : AssumptionActivation} (hfound : s.activations[i]? = some a)
    (hstage : a.stage = .releasing) (hfree : a.lastToken.all (¬ s.locked ·) = true) :
    Move s (s.unsubscribe i a) := by
  unfold unsubscribe
  cases hcount : a.subscriptionCount with
  | zero =>
      have hmark := Move.mark hfound (.released hstage hcount)
      simpa [hcount] using hmark
  | succ count =>
      have hle := hbounded a (List.mem_of_getElem? hfound)
      have hlt : count < a.set.dependencies.length := by omega
      have hlast := List.getElem?_eq_getElem hlt
      simp only [hlast]
      refine .unsubscribe hfound hstage hcount hlast ?_
      simpa [AssumptionActivation.lastToken, hcount, hlast] using hfree

/-- A token is closed when its mutex is free. -/
lemma invalidate_eq_some {s s' : AssumptionSystem} {token : Token}
    (hstep : s.step (.invalidate token) = some s') :
    s.locked token = false ∧ s' = s.invalidate token := by
  simp only [step, Option.ite_none_left_eq_some, Option.some.injEq, Bool.not_eq_true] at hstep
  exact ⟨hstep.1, hstep.2.symm⟩

/-- A request is made for the first context that the loop has not come to. -/
lemma requestWakeup_eq_some {s s' : AssumptionSystem} {j : Nat}
    (hstep : s.step (.requestWakeup j) = some s') : ∃ inv c rest,
      s.invalidations[j]? = some inv ∧ inv.pending = c :: rest ∧
        s' = s.requestWakeup j inv c rest := by
  obtain ⟨inv, hfound, hchange⟩ := Option.bind_eq_some_iff.mp hstep
  cases hpending : inv.pending with
  | nil => simp [hpending] at hchange
  | cons c rest => exact ⟨inv, c, rest, hfound, hpending, by simpa [hpending] using hchange.symm⟩

/-- **Step.** Every step is one of the moves. -/
lemma step_move {s s' : AssumptionSystem} (hbounded : s.Bounded) {e : AssumptionEvent}
    (hstep : s.step e = some s') : Move s s' := by
  cases e with
  | activate set context =>
      obtain rfl := Option.some.inj hstep
      exact .activate set context
  | construct i allocated =>
      obtain ⟨a, hfound, hchange⟩ := Option.bind_eq_some_iff.mp hstep
      simp only [Option.ite_none_right_eq_some, Option.some.injEq] at hchange
      obtain ⟨⟨hstage, hfree⟩, rfl⟩ := hchange
      exact construct_move hfound hstage hfree allocated
  | enter i =>
      obtain ⟨a, hfound, hchange⟩ := Option.bind_eq_some_iff.mp hstep
      simp only [Option.ite_none_right_eq_some, Option.some.injEq] at hchange
      obtain ⟨⟨hstage, hok⟩, rfl⟩ := hchange
      exact .mark hfound (.entered hstage hok)
  | leave i =>
      obtain ⟨a, hfound, hchange⟩ := Option.bind_eq_some_iff.mp hstep
      simp only [Option.ite_none_right_eq_some, Option.some.injEq] at hchange
      obtain ⟨hstage, rfl⟩ := hchange
      exact .mark hfound (.left hstage)
  | release i =>
      obtain ⟨a, hfound, hchange⟩ := Option.bind_eq_some_iff.mp hstep
      simp only [Option.ite_none_right_eq_some, Option.some.injEq] at hchange
      obtain ⟨hstage, rfl⟩ := hchange
      exact .mark hfound (.releasing hstage)
  | unsubscribe i =>
      obtain ⟨a, hfound, hchange⟩ := Option.bind_eq_some_iff.mp hstep
      simp only [Option.ite_none_right_eq_some, Option.some.injEq] at hchange
      obtain ⟨⟨hstage, hfree⟩, rfl⟩ := hchange
      exact unsubscribe_move hbounded hfound hstage hfree
  | invalidate token =>
      obtain ⟨hfree, rfl⟩ := invalidate_eq_some hstep
      exact .invalidate token hfree
  | requestWakeup j =>
      obtain ⟨inv, c, rest, hfound, hpending, rfl⟩ := requestWakeup_eq_some hstep
      exact .requested hfound hpending
  | returnInvalidate j =>
      obtain ⟨inv, hfound, hchange⟩ := Option.bind_eq_some_iff.mp hstep
      simp only [Option.ite_none_right_eq_some, Option.some.injEq] at hchange
      obtain ⟨⟨-, -, hquiet⟩, rfl⟩ := hchange
      exact .returned hfound hquiet
  | userInterrupt context requested =>
      obtain rfl := Option.some.inj hstep
      exact .userInterrupt context requested

/-! ## The invariant -/

/-- Every registration of a context belongs to an activation that holds it, the closed tokens are
those that were invalidated, an invalidation has asked for the wake-up of each registered context or
will still do so, and once it has returned nobody is registered. -/
structure Registered (s : AssumptionSystem) : Prop where
  sound : ∀ a ∈ s.activations, a.Sound fun token => (s.assumptions token).valid
  counted : ∀ token c, (s.assumptions token).activeContexts.count c =
    s.activations.countP fun a => a.context = c ∧ token ∈ a.subscribed
  closed : ∀ inv ∈ s.invalidations, (s.assumptions inv.token).valid = false
  invalidated : ∀ token, (s.assumptions token).valid = false →
    ∃ inv ∈ s.invalidations, inv.token = token
  pending : ∀ inv ∈ s.invalidations, ∀ c ∈ inv.pending,
    c ∈ (s.assumptions inv.token).activeContexts
  covered : ∀ inv ∈ s.invalidations, ∀ c ∈ (s.assumptions inv.token).activeContexts,
    c ∈ inv.requested ∨ c ∈ inv.pending
  quiet : ∀ inv ∈ s.invalidations, inv.returned → (s.assumptions inv.token).activeContexts = []

lemma locked_eq_true {s : AssumptionSystem} {token : Token} :
    s.locked token = true ↔ ∃ inv ∈ s.invalidations, inv.token = token ∧ inv.pending ≠ [] := by
  simp [locked]

lemma Registered.bounded {s : AssumptionSystem} (h : s.Registered) : s.Bounded :=
  fun a ha => (h.sound a ha).bounded

/-- At the start nothing is registered. -/
lemma registered_start (interrupts : ContextId → BitVec 64) :
    Registered { interrupts := interrupts } :=
  ⟨by simp, by simp, by simp, by simp, by simp, by simp, by simp⟩

/-- The invariant says nothing of the interrupt words. -/
lemma Registered.withInterrupts {s : AssumptionSystem} (h : s.Registered)
    (interrupts : ContextId → BitVec 64) : Registered { s with interrupts := interrupts } :=
  ⟨h.sound, h.counted, h.closed, h.invalidated, h.pending, h.covered, h.quiet⟩

/-- Marking keeps an activation sound. -/
lemma Marks.sound {s : AssumptionSystem} {a a' : AssumptionActivation} (h : Marks s a a')
    (ha : a.Sound fun token => (s.assumptions token).valid) :
    a'.Sound fun token => (s.assumptions token).valid := by
  cases h with
  | finished stage last =>
      refine ⟨ha.bounded, by simp, by simp, ?_, ha.reported, by simp, ha.exhausted⟩
      intro _ _
      exact le_antisymm ha.bounded (List.getElem?_eq_none_iff.mp last)
  | @invalid d stage next closed =>
      refine ⟨ha.bounded, by simp, by simp, by simp [AssumptionActivation.ok], ?_, by simp,
        ha.exhausted⟩
      intro k hk
      obtain rfl : a.subscriptionCount = k := by simpa using hk
      exact ⟨d, next, closed⟩
  | exhausted stage code =>
      refine ⟨ha.bounded, by simp, by simp, by simp [AssumptionActivation.ok], ha.reported,
        by simp, ?_⟩
      intro status hstatus
      obtain rfl := Except.error.inj hstatus
      exact code
  | entered stage ok =>
      refine ⟨ha.bounded, by simp, fun _ => ok, ?_, ha.reported, by simp, ha.exhausted⟩
      intro _ _
      exact ha.complete ok (.inl stage)
  | left stage =>
      refine ⟨ha.bounded, by simp, by simp, ?_, ha.reported, by simp, ha.exhausted⟩
      intro _ _
      exact ha.complete (ha.runs stage) (.inr stage)
  | releasing stage =>
      exact ⟨ha.bounded, by simp, by simp, by simp, ha.reported, by simp, ha.exhausted⟩
  | released stage empty =>
      exact ⟨ha.bounded, by simp, by simp, by simp, ha.reported, fun _ => empty, ha.exhausted⟩

/-- Marking keeps what is registered. -/
lemma Marks.frame {s : AssumptionSystem} {a a' : AssumptionActivation} (h : Marks s a a') :
    a'.set = a.set ∧ a'.context = a.context ∧ a'.subscriptionCount = a.subscriptionCount := by
  cases h <;> exact ⟨rfl, rfl, rfl⟩

lemma mem_set_cases {s : AssumptionSystem} {i : Nat} {a b : AssumptionActivation}
    (h : b ∈ s.activations.set i a) : b = a ∨ b ∈ s.activations :=
  (List.mem_or_eq_of_mem_set h).symm

/-- An activation that is changed keeps the invariant when it stays sound, the registrations follow
what it holds, those of closed tokens become no more and those of locked tokens stay. -/
lemma Registered.set {s s' : AssumptionSystem} (h : s.Registered) {i : Nat}
    {a a' : AssumptionActivation} (hfound : s.activations[i]? = some a)
    (hactivations : s'.activations = s.activations.set i a')
    (hinvalidations : s'.invalidations = s.invalidations)
    (hvalid : ∀ token, (s'.assumptions token).valid = (s.assumptions token).valid)
    (hsound : a'.Sound fun token => (s.assumptions token).valid)
    (hcount : ∀ token c, (s'.assumptions token).activeContexts.count c +
      (if a.context = c ∧ token ∈ a.subscribed then 1 else 0) =
        (s.assumptions token).activeContexts.count c +
          (if a'.context = c ∧ token ∈ a'.subscribed then 1 else 0))
    (hkept : ∀ token, (s.assumptions token).valid = false →
      (s'.assumptions token).activeContexts ⊆ (s.assumptions token).activeContexts)
    (hlocked : ∀ token, (s.assumptions token).valid = false → s.locked token = true →
      (s'.assumptions token).activeContexts = (s.assumptions token).activeContexts) :
    s'.Registered := by
  refine ⟨?_, ?_, ?_, ?_, ?_, ?_, ?_⟩
  · intro b hb
    simp only [hvalid]
    rw [hactivations] at hb
    rcases mem_set_cases hb with rfl | hb
    · exact hsound
    · exact h.sound b hb
  · intro token c
    have hset := countP_set_add hfound a' fun a => decide (a.context = c ∧ token ∈ a.subscribed)
    have hchange := hcount token c
    have hbefore := h.counted token c
    simp only [decide_eq_true_eq] at hset
    rw [hactivations]
    omega
  · intro inv hinv
    rw [hvalid]
    exact h.closed inv (hinvalidations ▸ hinv)
  · intro token hclosed
    rw [hvalid] at hclosed
    rw [hinvalidations]
    exact h.invalidated token hclosed
  · intro inv hinv c hc
    rw [hinvalidations] at hinv
    rw [hlocked _ (h.closed inv hinv)
      (locked_eq_true.mpr ⟨inv, hinv, rfl, List.ne_nil_of_mem hc⟩)]
    exact h.pending inv hinv c hc
  · intro inv hinv c hc
    rw [hinvalidations] at hinv
    exact h.covered inv hinv c (hkept _ (h.closed inv hinv) hc)
  · intro inv hinv hreturned
    rw [hinvalidations] at hinv
    have hkept := hkept _ (h.closed inv hinv)
    rw [h.quiet inv hinv hreturned] at hkept
    exact List.subset_nil.mp hkept

/-- Marking an activation keeps the system registered. -/
lemma Registered.mark {s : AssumptionSystem} (h : s.Registered) {i : Nat}
    {a a' : AssumptionActivation} (hfound : s.activations[i]? = some a) (hmarks : Marks s a a') :
    (s.setActivation i a').Registered := by
  obtain ⟨hset, hcontext, hcount⟩ := hmarks.frame
  have hsubscribed : a'.subscribed = a.subscribed := by
    simp only [AssumptionActivation.subscribed, hset, hcount]
  refine Registered.set h hfound rfl rfl (fun _ => rfl) ?_ ?_ ?_ ?_
  · exact hmarks.sound (h.sound a (List.mem_of_getElem? hfound))
  · intro token c
    rw [hsubscribed, hcontext]
    rfl
  · exact fun _ _ => List.Subset.refl _
  · exact fun _ _ _ => rfl

/-- A subscription keeps the system registered. -/
lemma Registered.subscribe {s : AssumptionSystem} (h : s.Registered) {i : Nat}
    {a : AssumptionActivation} {d : AssumptionDependency} (hfound : s.activations[i]? = some a)
    (hstage : a.stage = .constructing)
    (hnext : a.set.dependencies[a.subscriptionCount]? = some d)
    (hvalid : (s.assumptions d.assumption).valid = true) :
    ((s.setAssumption d.assumption { s.assumptions d.assumption with
      activeContexts := (s.assumptions d.assumption).activeContexts ++ [a.context] }).setActivation
        i { a with subscriptionCount := a.subscriptionCount + 1 }).Registered := by
  have ha := h.sound a (List.mem_of_getElem? hfound)
  obtain ⟨hsubscribed, hnew⟩ := AssumptionActivation.subscribed_succ hnext
  -- The registrations of a closed token stay as they are, because the new one is not with it.
  have hsame : ∀ token, (s.assumptions token).valid = false →
      ((s.setAssumption d.assumption { s.assumptions d.assumption with
        activeContexts := (s.assumptions d.assumption).activeContexts ++
          [a.context] }).assumptions token).activeContexts =
        (s.assumptions token).activeContexts := by
    intro token hclosed
    have htoken : token ≠ d.assumption := by
      rintro rfl
      simp [hvalid] at hclosed
    simp [setAssumption, htoken]
  refine Registered.set h hfound rfl rfl ?_ ?_ ?_ (fun token hclosed => ?_)
    (fun token hclosed _ => hsame token hclosed)
  · intro token
    by_cases htoken : token = d.assumption
    · subst htoken
      simp [setAssumption, setActivation]
    · simp [setAssumption, setActivation, htoken]
  · refine ⟨(List.getElem?_eq_some_iff.mp hnext).1, fun _ => ha.fresh hstage, ?_, ?_, ha.reported,
      ?_, ha.exhausted⟩
    · simp [hstage]
    · simp [hstage]
    · simp [hstage]
  · intro token c
    rw [hsubscribed]
    by_cases htoken : token = d.assumption
    · subst htoken
      have hnew' : d.assumption ∉ a.subscribed := hnew
      by_cases hc : a.context = c
      · simp [setAssumption, setActivation, hnew', hc]
      · simp [setAssumption, setActivation, hc]
    · simp [setAssumption, setActivation, htoken]
  · intro c hc
    rw [← hsame token hclosed]
    exact hc

/-- Taking a registration back keeps the system registered. -/
lemma Registered.unsubscribe {s : AssumptionSystem} (h : s.Registered) {i count : Nat}
    {a : AssumptionActivation} {d : AssumptionDependency} (hfound : s.activations[i]? = some a)
    (hstage : a.stage = .releasing) (hheld : a.subscriptionCount = count + 1)
    (hlast : a.set.dependencies[count]? = some d) (hfree : s.locked d.assumption = false) :
    ((s.setAssumption d.assumption
      ((s.assumptions d.assumption).unsubscribe a.context)).setActivation
        i { a with subscriptionCount := count }).Registered := by
  have hmem := List.mem_of_getElem? hfound
  have ha := h.sound a hmem
  obtain ⟨hsubscribed, hnew⟩ := AssumptionActivation.subscribed_succ hlast
  rw [← hheld] at hsubscribed
  -- The registration that is removed is there, because this activation still holds it.
  have hthere : a.context ∈ (s.assumptions d.assumption).activeContexts := by
    rw [← List.count_pos_iff, h.counted, List.countP_pos_iff]
    refine ⟨a, hmem, ?_⟩
    have : a.subscribed = _ := hsubscribed
    simp [this]
  refine Registered.set h hfound rfl rfl ?_ ?_ ?_ ?_ ?_
  · intro token
    by_cases htoken : token = d.assumption
    · subst htoken
      simp [setAssumption, setActivation, Assumption.unsubscribe]
    · simp [setAssumption, setActivation, htoken]
  · refine ⟨(List.getElem?_eq_some_iff.mp hlast).1.le, ?_, ?_, ?_, ha.reported, ?_, ha.exhausted⟩
    · simp [hstage]
    · simp [hstage]
    · simp [hstage]
    · simp [hstage]
  · intro token c
    have hbefore : a.subscribed = _ := hsubscribed
    rw [hbefore]
    by_cases htoken : token = d.assumption
    · subst htoken
      have hcount := List.count_pos_iff.mpr hthere
      by_cases hc : a.context = c
      · subst hc
        simp only [setAssumption, setActivation, Assumption.unsubscribe, Function.update_self,
          List.count_erase_self, List.mem_append, List.mem_singleton, hnew]
        simp
        omega
      · simp [setAssumption, setActivation, Assumption.unsubscribe, hc,
          List.count_erase_of_ne (Ne.symm hc)]
    · simp [setAssumption, setActivation, htoken]
  · intro token _
    by_cases htoken : token = d.assumption
    · subst htoken
      simp [setAssumption, setActivation, Assumption.unsubscribe, List.erase_subset]
    · simp [setAssumption, setActivation, htoken]
  · intro token _ hlocked
    have htoken : token ≠ d.assumption := by
      rintro rfl
      simp [hfree] at hlocked
    simp [setAssumption, setActivation, htoken]

/-- An invalidation closes its token and no other. -/
lemma invalidate_valid (s : AssumptionSystem) (token other : Token) :
    ((s.invalidate token).assumptions other).valid =
      if other = token then false else (s.assumptions other).valid := by
  by_cases h : other = token
  · subst h
    simp [invalidate, setAssumption]
  · simp [invalidate, setAssumption, h]

/-- An invalidation keeps the registrations. -/
lemma invalidate_activeContexts (s : AssumptionSystem) (token other : Token) :
    ((s.invalidate token).assumptions other).activeContexts =
      (s.assumptions other).activeContexts := by
  by_cases h : other = token
  · subst h
    simp [invalidate, setAssumption]
  · simp [invalidate, setAssumption, h]

/-- An invalidation keeps the system registered. -/
lemma Registered.invalidate {s : AssumptionSystem} (h : s.Registered) (token : Token) :
    (s.invalidate token).Registered := by
  have hclosed : ∀ t, (s.assumptions t).valid = false →
      ((s.invalidate token).assumptions t).valid = false := by
    intro t ht
    rw [invalidate_valid]
    split_ifs
    · rfl
    · exact ht
  refine ⟨?_, ?_, ?_, ?_, ?_, ?_, ?_⟩
  · exact fun a ha => (h.sound a ha).mono hclosed
  · intro t c
    rw [invalidate_activeContexts]
    exact h.counted t c
  · intro inv hinv
    rcases List.mem_append.mp hinv with hinv | hinv
    · exact hclosed _ (h.closed inv hinv)
    · obtain rfl : inv = _ := List.mem_singleton.mp hinv
      rw [invalidate_valid, if_pos rfl]
  · intro t ht
    rw [invalidate_valid] at ht
    split_ifs at ht with heq
    · exact ⟨_, List.mem_append_right _ (List.mem_singleton.mpr rfl), heq.symm⟩
    · obtain ⟨inv, hinv, rfl⟩ := h.invalidated t ht
      exact ⟨inv, List.mem_append_left _ hinv, rfl⟩
  · intro inv hinv c hc
    rw [invalidate_activeContexts]
    rcases List.mem_append.mp hinv with hinv | hinv
    · exact h.pending inv hinv c hc
    · obtain rfl : inv = _ := List.mem_singleton.mp hinv
      exact hc
  · intro inv hinv c hc
    rw [invalidate_activeContexts] at hc
    rcases List.mem_append.mp hinv with hinv | hinv
    · exact h.covered inv hinv c hc
    · obtain rfl : inv = _ := List.mem_singleton.mp hinv
      exact .inr hc
  · intro inv hinv hreturned
    rw [invalidate_activeContexts]
    rcases List.mem_append.mp hinv with hinv | hinv
    · exact h.quiet inv hinv hreturned
    · obtain rfl : inv = _ := List.mem_singleton.mp hinv
      simp at hreturned

/-- A new activation keeps the system registered. -/
lemma Registered.activate {s : AssumptionSystem} (h : s.Registered) (set : AssumptionSet)
    (context : ContextId) :
    Registered { s with activations := s.activations ++ [{ set := set, context := context }] } := by
  refine ⟨?_, ?_, h.closed, h.invalidated, h.pending, h.covered, h.quiet⟩
  · intro a ha
    rcases List.mem_append.mp ha with ha | ha
    · exact h.sound a ha
    · obtain rfl : a = _ := List.mem_singleton.mp ha
      exact ⟨Nat.zero_le _, by simp [AssumptionActivation.ok], by simp, by simp, by simp, by simp,
        by simp⟩
  · intro token c
    simp [List.countP_append, AssumptionActivation.subscribed, h.counted]

/-- A call of `invalidate` that gets on keeps the invariant when it leaves no registered context
out. -/
lemma Registered.setInvalidation {s : AssumptionSystem} (h : s.Registered) {j : Nat}
    {inv : Invalidation} (hfound : s.invalidations[j]? = some inv) (inv' : Invalidation)
    (htoken : inv'.token = inv.token) (hpending : inv'.pending ⊆ inv.pending)
    (hcovered : ∀ c, c ∈ inv.requested ∨ c ∈ inv.pending → c ∈ inv'.requested ∨ c ∈ inv'.pending)
    (hquiet : inv'.returned → inv.returned ∨ (s.assumptions inv.token).activeContexts = [])
    (interrupts : ContextId → BitVec 64) :
    Registered { s with interrupts := interrupts, invalidations := s.invalidations.set j inv' } := by
  have hinv := List.mem_of_getElem? hfound
  refine ⟨h.sound, h.counted, ?_, ?_, ?_, ?_, ?_⟩
  · intro i hi
    rcases List.mem_or_eq_of_mem_set hi with hi | rfl
    · exact h.closed i hi
    · rw [htoken]
      exact h.closed inv hinv
  · intro token hclosed
    exact (exists_mem_set_iff hfound htoken.trans).mpr (.inr (h.invalidated token hclosed))
  · intro i hi c hc
    rcases List.mem_or_eq_of_mem_set hi with hi | rfl
    · exact h.pending i hi c hc
    · rw [htoken]
      exact h.pending inv hinv c (hpending hc)
  · intro i hi c hc
    rcases List.mem_or_eq_of_mem_set hi with hi | rfl
    · exact h.covered i hi c hc
    · rw [htoken] at hc
      exact hcovered c (h.covered inv hinv c hc)
  · intro i hi hreturned
    rcases List.mem_or_eq_of_mem_set hi with hi | rfl
    · exact h.quiet i hi hreturned
    · rw [htoken]
      rcases hquiet hreturned with hbefore | hempty
      · exact h.quiet inv hinv hbefore
      · exact hempty

/-- A requested wake-up keeps the system registered. -/
lemma Registered.requested {s : AssumptionSystem} (h : s.Registered) {j : Nat} {inv : Invalidation}
    {c : ContextId} {rest : List ContextId} (hfound : s.invalidations[j]? = some inv)
    (hpending : inv.pending = c :: rest) : Registered (s.requestWakeup j inv c rest) := by
  refine h.setInvalidation hfound { inv with requested := inv.requested ++ [c], pending := rest }
    rfl ?_ ?_ .inl _
  · rw [hpending]
    exact List.subset_cons_self c rest
  · intro c' hc'
    rw [hpending] at hc'
    simp only [List.mem_append, List.mem_singleton]
    rcases hc' with hrequested | hc'
    · exact .inl (.inl hrequested)
    · rcases List.mem_cons.mp hc' with rfl | hrest
      · exact .inl (.inr rfl)
      · exact .inr hrest

/-- An invalidation that returns keeps the system registered. -/
lemma Registered.returned {s : AssumptionSystem} (h : s.Registered) {j : Nat} {inv : Invalidation}
    (hfound : s.invalidations[j]? = some inv)
    (hquiet : (s.assumptions inv.token).activeContexts = []) :
    Registered { s with invalidations := s.invalidations.set j { inv with returned := true } } :=
  h.setInvalidation hfound { inv with returned := true } rfl (List.Subset.refl _)
    (fun _ hc => hc) (fun _ => .inr hquiet) s.interrupts

/-- **Step.** Every move keeps the invariant. -/
lemma Registered.move {s s' : AssumptionSystem} (h : s.Registered) (hmove : Move s s') :
    s'.Registered := by
  cases hmove with
  | activate set context => exact h.activate set context
  | mark found marks => exact h.mark found marks
  | subscribe found stage next valid free => exact h.subscribe found stage next valid
  | unsubscribe found stage held last free => exact h.unsubscribe found stage held last free
  | invalidate token free => exact h.invalidate token
  | requested found pending => exact h.requested found pending
  | returned found quiet => exact h.returned found quiet
  | userInterrupt context requested => exact h.withInterrupts _

/-- Every step keeps the system registered. -/
lemma Registered.next {s s' : AssumptionSystem} (h : s.Registered) {e : AssumptionEvent}
    (hstep : s.step e = some s') : s'.Registered :=
  h.move (step_move h.bounded hstep)

/-- **Run.** The invariant holds in every state the protocol reaches. -/
lemma registered_afterEvents {interrupts : ContextId → BitVec 64} {events : List AssumptionEvent}
    {s : AssumptionSystem} (hrun : afterEvents step { interrupts := interrupts } events = some s) :
    s.Registered :=
  invariant (fun _ _ _ h hstep => h.next hstep) (registered_start interrupts) hrun

/-! ## Activations that begin after an invalidation -/

/-- From a state with `n` activations in which `token` is closed, no later activation gets past
the dependency on it. -/
structure Shut (token : Token) (n : Nat) (s : AssumptionSystem) : Prop where
  closed : (s.assumptions token).valid = false
  awaits : ∀ i a, n ≤ i → s.activations[i]? = some a → ∀ position d,
    a.set.dependencies[position]? = some d → d.assumption = token → a.stage = .constructing →
      a.subscriptionCount ≤ position
  rejects : ∀ i a, n ≤ i → s.activations[i]? = some a → ∀ position d,
    a.set.dependencies[position]? = some d → d.assumption = token → a.stage ≠ .constructing →
      a.Rejects position

/-- A closed token is shut for what is activated from now on. -/
lemma shut_now {s : AssumptionSystem} {token : Token}
    (hclosed : (s.assumptions token).valid = false) : Shut token s.activations.length s := by
  have hnone : ∀ i a, s.activations.length ≤ i → s.activations[i]? ≠ some a := by
    intro i a hi hfound
    rw [List.getElem?_eq_none hi] at hfound
    simp at hfound
  refine ⟨hclosed, ?_, ?_⟩
  · exact fun i a hi hfound => absurd hfound (hnone i a hi)
  · exact fun i a hi hfound => absurd hfound (hnone i a hi)

/-- An activation that is changed keeps `Shut` when it does so itself. -/
lemma Shut.set {s s' : AssumptionSystem} {token : Token} {n i : Nat} {a a' : AssumptionActivation}
    (h : Shut token n s) (hfound : s.activations[i]? = some a)
    (hactivations : s'.activations = s.activations.set i a')
    (hvalid : (s'.assumptions token).valid = (s.assumptions token).valid)
    (hawaits : n ≤ i → ∀ position d, a'.set.dependencies[position]? = some d →
      d.assumption = token → a'.stage = .constructing → a'.subscriptionCount ≤ position)
    (hrejects : n ≤ i → ∀ position d, a'.set.dependencies[position]? = some d →
      d.assumption = token → a'.stage ≠ .constructing → a'.Rejects position) :
    Shut token n s' := by
  refine ⟨hvalid.trans h.closed, ?_, ?_⟩
  · intro j b hj hb
    rw [hactivations] at hb
    rcases getElem?_set_cases hb with ⟨rfl, rfl⟩ | hb
    · exact hawaits hj
    · exact h.awaits j b hj hb
  · intro j b hj hb
    rw [hactivations] at hb
    rcases getElem?_set_cases hb with ⟨rfl, rfl⟩ | hb
    · exact hrejects hj
    · exact h.rejects j b hj hb

/-- Marking keeps a token shut. -/
lemma Shut.mark {s : AssumptionSystem} {token : Token} {n i : Nat} {a a' : AssumptionActivation}
    (h : Shut token n s) (hfound : s.activations[i]? = some a) (hmarks : Marks s a a') :
    Shut token n (s.setActivation i a') := by
  have hstage : a'.stage ≠ .constructing := by
    cases hmarks <;> simp
  refine Shut.set h hfound rfl rfl (fun _ _ _ _ _ hc => absurd hc hstage) ?_
  intro hi position d hd htoken _
  cases hmarks with
  | finished stage last =>
      have hle := h.awaits i a hi hfound position d hd htoken stage
      have hlt := (List.getElem?_eq_some_iff.mp hd).1
      have hlast := List.getElem?_eq_none_iff.mp last
      exact absurd (hlt.trans_le (hlast.trans hle)) (lt_irrefl _)
  | invalid stage next closed =>
      exact .inl ⟨_, h.awaits i a hi hfound position d hd htoken stage, rfl⟩
  | exhausted stage code => exact .inr ⟨_, rfl, code⟩
  | entered stage ok =>
      have hrejects := h.rejects i a hi hfound position d hd htoken (by simp [stage])
      rw [hrejects.not_ok] at ok
      simp at ok
  | left stage => exact h.rejects i a hi hfound position d hd htoken (by simp [stage])
  | releasing stage => exact h.rejects i a hi hfound position d hd htoken (by simp [stage])
  | released stage empty => exact h.rejects i a hi hfound position d hd htoken (by simp [stage])

/-- A subscription keeps a token shut. -/
lemma Shut.subscribe {s : AssumptionSystem} {token : Token} {n i : Nat} {a : AssumptionActivation}
    {d : AssumptionDependency} (h : Shut token n s) (hfound : s.activations[i]? = some a)
    (hstage : a.stage = .constructing)
    (hnext : a.set.dependencies[a.subscriptionCount]? = some d)
    (hvalid : (s.assumptions d.assumption).valid = true) (contexts : List ContextId) :
    Shut token n ((s.setAssumption d.assumption { s.assumptions d.assumption with
      activeContexts := contexts }).setActivation
        i { a with subscriptionCount := a.subscriptionCount + 1 }) := by
  have htoken : token ≠ d.assumption := by
    rintro rfl
    have hclosed := h.closed
    simp [hvalid] at hclosed
  refine Shut.set h hfound rfl ?_ ?_ (fun _ _ _ _ _ hc => absurd hstage hc)
  · simp [setAssumption, setActivation, htoken]
  · intro hi position d' hd' htoken' _
    have hle := h.awaits i a hi hfound position d' hd' htoken' hstage
    -- The dependency on the closed token is not the one that was registered just now.
    have hne : a.subscriptionCount ≠ position := by
      intro heq
      have hd : a.set.dependencies[position]? = some d := heq ▸ hnext
      obtain rfl : d = d' := Option.some.inj (hd.symm.trans hd')
      exact htoken htoken'.symm
    exact lt_of_le_of_ne hle hne

/-- Taking a registration back keeps a token shut. -/
lemma Shut.unsubscribe {s : AssumptionSystem} {token : Token} {n i count : Nat}
    {a : AssumptionActivation} {d : AssumptionDependency} (h : Shut token n s)
    (hfound : s.activations[i]? = some a) (hstage : a.stage = .releasing) :
    Shut token n ((s.setAssumption d.assumption
      ((s.assumptions d.assumption).unsubscribe a.context)).setActivation
        i { a with subscriptionCount := count }) := by
  refine Shut.set h hfound rfl ?_ ?_ ?_
  · by_cases htoken : token = d.assumption
    · subst htoken
      simp [setAssumption, setActivation, Assumption.unsubscribe]
    · simp [setAssumption, setActivation, htoken]
  · intro _ _ _ _ _ hc
    simp [hstage] at hc
  · intro hi position d' hd' htoken' _
    exact h.rejects i a hi hfound position d' hd' htoken' (by simp [hstage])

/-- A new activation keeps a token shut. -/
lemma Shut.activate {s : AssumptionSystem} {token : Token} {n : Nat} (h : Shut token n s)
    (set : AssumptionSet) (context : ContextId) :
    Shut token n
      { s with activations := s.activations ++ [{ set := set, context := context }] } := by
  have hcases : ∀ (i : Nat) (a : AssumptionActivation),
      (s.activations ++ [({ set := set, context := context } : AssumptionActivation)])[i]? = some a →
        s.activations[i]? = some a ∨ a = { set := set, context := context } := by
    intro i a ha
    rw [List.getElem?_append] at ha
    split_ifs at ha
    · exact .inl ha
    · exact .inr (List.mem_singleton.mp (List.mem_of_getElem? ha))
  refine ⟨h.closed, ?_, ?_⟩
  · intro i a hi ha
    rcases hcases i a ha with ha | rfl
    · exact h.awaits i a hi ha
    · exact fun position _ _ _ _ => Nat.zero_le position
  · intro i a hi ha
    rcases hcases i a ha with ha | rfl
    · exact h.rejects i a hi ha
    · exact fun _ _ _ _ hc => absurd rfl hc

/-- **Step.** Every move keeps a closed token out of reach. -/
lemma Shut.move {s s' : AssumptionSystem} {token : Token} {n : Nat} (h : Shut token n s)
    (hmove : Move s s') : Shut token n s' := by
  cases hmove with
  | activate set context => exact h.activate set context
  | mark found marks => exact h.mark found marks
  | subscribe found stage next valid free => exact h.subscribe found stage next valid _
  | unsubscribe found stage held last free => exact h.unsubscribe found stage
  | invalidate other free =>
      refine ⟨?_, h.awaits, h.rejects⟩
      rw [invalidate_valid]
      split_ifs
      · rfl
      · exact h.closed
  | requested found pending => exact ⟨h.closed, h.awaits, h.rejects⟩
  | returned found quiet => exact ⟨h.closed, h.awaits, h.rejects⟩
  | userInterrupt context requested => exact ⟨h.closed, h.awaits, h.rejects⟩

/-- **Run.** An activation that begins when a token is closed does not get past it. -/
lemma Registered.shut_afterEvents {s s' : AssumptionSystem} (h : s.Registered) {token : Token}
    (hclosed : (s.assumptions token).valid = false) {events : List AssumptionEvent}
    (hrun : afterEvents step s events = some s') : Shut token s.activations.length s' := by
  have hboth : s'.Registered ∧ Shut token s.activations.length s' := by
    have hstart : s.Registered ∧ Shut token s.activations.length s := ⟨h, shut_now hclosed⟩
    refine invariant (I := fun t => t.Registered ∧ Shut token s.activations.length t) ?_ hstart hrun
    intro t e t' ht hstep
    have hmove := step_move ht.1.bounded hstep
    exact ⟨ht.1.move hmove, ht.2.move hmove⟩
  exact hboth.2

/-! ## The user's interrupt -/

/-- The bit of the user in the interrupt word of a context. -/
def userInterrupted (s : AssumptionSystem) (c : ContextId) : Bool := (s.interrupts c).getLsbD 0

/-- The constructor leaves the interrupt words alone. -/
lemma construct_interrupts (s : AssumptionSystem) (i : Nat) (a : AssumptionActivation)
    (allocated : Bool) : (s.construct i a allocated).interrupts = s.interrupts := by
  unfold construct
  split
  · rfl
  · dsimp only
    split <;> rfl

/-- The destructor leaves the interrupt words alone. -/
lemma unsubscribe_interrupts (s : AssumptionSystem) (i : Nat) (a : AssumptionActivation) :
    (s.unsubscribe i a).interrupts = s.interrupts := by
  unfold unsubscribe
  split
  · rfl
  · dsimp only
    split <;> rfl

/-- A wake-up leaves the user's bits alone. -/
lemma requestWakeup_userInterrupted (s : AssumptionSystem) (j : Nat) (inv : Invalidation)
    (c' : ContextId) (rest : List ContextId) (c : ContextId) :
    (s.requestWakeup j inv c' rest).userInterrupted c = s.userInterrupted c := by
  unfold userInterrupted requestWakeup
  by_cases hc : c = c'
  · subst hc
    simp [wakeupBit]
  · simp [hc]

/-- No step of the protocol touches the bit of the user. -/
lemma step_userInterrupted {s s' : AssumptionSystem} {e : AssumptionEvent}
    (hstep : s.step e = some s') (he : ∀ c requested, e ≠ .userInterrupt c requested)
    (c : ContextId) : s'.userInterrupted c = s.userInterrupted c := by
  cases e with
  | activate set context =>
      obtain rfl := Option.some.inj hstep
      rfl
  | construct i allocated =>
      obtain ⟨a, hfound, hchange⟩ := Option.bind_eq_some_iff.mp hstep
      simp only [Option.ite_none_right_eq_some, Option.some.injEq] at hchange
      obtain ⟨-, rfl⟩ := hchange
      simp only [userInterrupted, construct_interrupts]
  | enter i | leave i | release i =>
      obtain ⟨a, hfound, hchange⟩ := Option.bind_eq_some_iff.mp hstep
      simp only [Option.ite_none_right_eq_some, Option.some.injEq] at hchange
      obtain ⟨-, rfl⟩ := hchange
      rfl
  | unsubscribe i =>
      obtain ⟨a, hfound, hchange⟩ := Option.bind_eq_some_iff.mp hstep
      simp only [Option.ite_none_right_eq_some, Option.some.injEq] at hchange
      obtain ⟨-, rfl⟩ := hchange
      simp only [userInterrupted, unsubscribe_interrupts]
  | invalidate token =>
      obtain ⟨-, rfl⟩ := invalidate_eq_some hstep
      rfl
  | requestWakeup j =>
      obtain ⟨inv, c', rest, -, -, rfl⟩ := requestWakeup_eq_some hstep
      exact requestWakeup_userInterrupted s j inv c' rest c
  | returnInvalidate j =>
      obtain ⟨inv, hfound, hchange⟩ := Option.bind_eq_some_iff.mp hstep
      simp only [Option.ite_none_right_eq_some, Option.some.injEq] at hchange
      obtain ⟨-, rfl⟩ := hchange
      rfl
  | userInterrupt context requested => exact absurd rfl (he context requested)

/-! ## The protocol -/

/-- Nobody runs under a token, or is registered with it, once its invalidation has returned. -/
lemma Registered.not_running {s : AssumptionSystem} (h : s.Registered) {inv : Invalidation}
    (hinv : inv ∈ s.invalidations) (hreturned : inv.returned = true) {a : AssumptionActivation}
    (ha : a ∈ s.activations) : inv.token ∉ a.subscribed ∧
      (a.stage = .running → inv.token ∉ a.set.dependencies.map (·.assumption)) := by
  have hnot : inv.token ∉ a.subscribed := by
    have hcount := h.counted inv.token a.context
    rw [h.quiet inv hinv hreturned, List.count_nil, eq_comm, List.countP_eq_zero] at hcount
    have hheld := hcount a ha
    simpa using hheld
  refine ⟨hnot, ?_⟩
  intro hrunning hmem
  have hsound := h.sound a ha
  have hcomplete := hsound.complete (hsound.runs hrunning) (.inr hrunning)
  apply hnot
  rw [AssumptionActivation.subscribed, hcomplete, List.take_length]
  exact hmem

/-- **The invalidation protocol.** In every state that an interleaving reaches:

1. once an invalidation of a token has returned, no activation is registered with the token, and
   none whose set depends on it runs native code;
2. an activation that began after that return never runs: when its construction is over, it
   reports a dependency that is invalid, the one on this token or one before it, unless it ran out
   of memory before that;
3. a context is registered with a token once for each of its activations that still hold the
   token, and an activation holds none after its release, however far its construction got;
4. no step of the protocol changes the bit of the user. -/
theorem assumption_protocol (interrupts : ContextId → BitVec 64) (events : List AssumptionEvent)
    (s : AssumptionSystem)
    (hrun : afterEvents step { interrupts := interrupts } events = some s) :
    (∀ inv ∈ s.invalidations, inv.returned = true → ∀ a ∈ s.activations,
      inv.token ∉ a.subscribed ∧
        (a.stage = .running → inv.token ∉ a.set.dependencies.map (·.assumption))) ∧
    (∀ inv ∈ s.invalidations, inv.returned = true →
      ∀ (later : List AssumptionEvent) (s' : AssumptionSystem),
        afterEvents step s later = some s' →
        ∀ (i : Nat) (a : AssumptionActivation), s.activations.length ≤ i →
          s'.activations[i]? = some a →
        ∀ (position : Nat) (d : AssumptionDependency),
          a.set.dependencies[position]? = some d → d.assumption = inv.token →
          a.stage ≠ .constructing →
            a.stage ≠ .running ∧ a.ok = false ∧
            ((∃ k ≤ position, a.invalidDependency = some k ∧
                ∃ d', a.set.dependencies[k]? = some d' ∧
                  (s'.assumptions d'.assumption).valid = false) ∨
              ∃ status, a.status = .error status ∧ status.code = .resourceExhausted)) ∧
    ((∀ token c, (s.assumptions token).activeContexts.count c =
        s.activations.countP fun a => a.context = c ∧ token ∈ a.subscribed) ∧
      ∀ a ∈ s.activations, a.stage = .released → a.subscribed = []) ∧
    (∀ e s', s.step e = some s' → (∀ c requested, e ≠ .userInterrupt c requested) →
      ∀ c, s'.userInterrupted c = s.userInterrupted c) := by
  have h := registered_afterEvents hrun
  refine ⟨?_, ?_, ⟨h.counted, ?_⟩, ?_⟩
  · exact fun inv hinv hreturned a ha => h.not_running hinv hreturned ha
  · intro inv hinv hreturned later s' hlater i a hi hfound position d hd htoken hstage
    have hregistered : s'.Registered :=
      invariant (fun _ _ _ h hstep => h.next hstep) h hlater
    have hshut := h.shut_afterEvents (h.closed inv hinv) hlater
    have hrejects := hshut.rejects i a hi hfound position d hd htoken hstage
    have hsound := hregistered.sound a (List.mem_of_getElem? hfound)
    refine ⟨?_, hrejects.not_ok, ?_⟩
    · intro hrunning
      have hok := hsound.runs hrunning
      rw [hrejects.not_ok] at hok
      simp at hok
    · rcases hrejects with ⟨k, hk, hreport⟩ | hexhausted
      · exact .inl ⟨k, hk, hreport, hsound.reported k hreport⟩
      · exact .inr hexhausted
  · intro a ha hreleased
    simp [AssumptionActivation.subscribed, (h.sound a ha).released hreleased]
  · exact fun e s' hstep he c => step_userInterrupted hstep he c

/-- Two dependencies, on the tokens 0 and 1. -/
def sampleSet : AssumptionSet where
  dependencies := [⟨0, 10, 4⟩, ⟨1, 11, 8⟩]
  site_le := by decide

/-- An activation runs while token 1 is invalidated, leaves and is released; then the invalidation
returns. -/
def sampleEvents : List AssumptionEvent :=
  [.activate sampleSet 7, .construct 0 true, .construct 0 true, .construct 0 true, .enter 0,
    .invalidate 1, .requestWakeup 0, .leave 0, .release 0, .unsubscribe 0, .unsubscribe 0,
    .unsubscribe 0, .returnInvalidate 0]

/-- A run in which an invalidation requests the one registered context and returns. -/
theorem assumption_protocol_sample :
    ∃ s, afterEvents step { interrupts := fun _ => 0 } sampleEvents = some s ∧
      ({ token := 1, changed := true, requested := [7], returned := true } : Invalidation) ∈
        s.invalidations ∧
      ∀ a ∈ s.activations, 1 ∉ a.subscribed := by
  obtain ⟨s, hrun, hinv⟩ : ∃ s, afterEvents step { interrupts := fun _ => 0 } sampleEvents = some s ∧
      ({ token := 1, changed := true, requested := [7], returned := true } : Invalidation) ∈
        s.invalidations :=
    ⟨_, rfl, List.mem_singleton.mpr rfl⟩
  refine ⟨s, hrun, hinv, ?_⟩
  intro a ha
  exact ((assumption_protocol _ _ s hrun).1 _ hinv rfl a ha).1

/-- The dependency that a later activation reports is not always the one that was invalidated:
when the tokens of two of its dependencies are closed, it reports the first of them. -/
theorem assumption_protocol_reports_first :
    ¬ ∀ (interrupts : ContextId → BitVec 64) (events : List AssumptionEvent) (s : AssumptionSystem),
      afterEvents step { interrupts := interrupts } events = some s →
      ∀ inv ∈ s.invalidations, inv.returned = true →
      ∀ (later : List AssumptionEvent) (s' : AssumptionSystem),
        afterEvents step s later = some s' →
        ∀ (i : Nat) (a : AssumptionActivation), s.activations.length ≤ i →
          s'.activations[i]? = some a →
        ∀ (position : Nat) (d : AssumptionDependency),
          a.set.dependencies[position]? = some d → d.assumption = inv.token →
          a.stage ≠ .constructing → a.invalidDependency = some position := by
  intro h
  have hreport := h (fun _ => 0)
    [.invalidate 0, .returnInvalidate 0, .invalidate 1, .returnInvalidate 1] _ rfl
    ⟨1, true, [], [], true⟩ (List.mem_of_getElem? (i := 1) rfl) rfl
    [.activate sampleSet 7, .construct 0 true] _ rfl 0 _ (Nat.le_refl 0) rfl 1 ⟨1, 11, 8⟩ rfl rfl
    (by decide)
  exact absurd hreport (by decide)

end AssumptionSystem

end UniJit.Runtime
