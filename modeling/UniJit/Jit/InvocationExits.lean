import UniJit.Jit.InvocationBindings

/-!
# Exits of nested invocations

All invocations on a context share one exit record. An invocation clears it when it begins, and
reports an exit at its end if the record has one. In between the record may have the exit of an
inner invocation, which nobody clears: a call that returns normally then reports that exit as its
own. The theorem of this module says exactly when an invocation reports what it did itself.
-/

namespace UniJit.Jit

open UniJit.Ir UniJit.Lib UniJit.Lib.Transitions UniJit.Runtime

/-- The status code that reports an exit. -/
def exitStatusCode : ExitReason → Option StatusCode
  | .none => none
  | .safepoint => some .executionInterrupted
  | .runtime => some .runtimeExit

/-- A result reports the exit of a record: its status has the code of the reason and the site, and
its value is 0. -/
def InvocationResult.Reports (result : InvocationResult) (r : ExitRecord) : Prop :=
  result.value = 0 ∧ ∃ status, result.status = .error status ∧
    exitStatusCode r.reason = some status.code ∧ status.location = r.site

namespace Invocation

/-- The exit of an invocation itself: the one of its own assumption, else the one of its native
code. The exit of an assumption keeps the values that the native code captured. -/
def ownExit (v : Invocation) : Option ExitRecord :=
  match v.deoptimized with
  | some site =>
      some { reason := .runtime, site := site, captured := (v.exit.map (·.captured)).getD [] }
  | none => v.exit

/-- An invocation is transparent: what it reports, and the record it leaves, say what it did
itself. -/
structure Transparent (v : Invocation) (result : InvocationResult) (record : ExitRecord) :
    Prop where
  /-- An exit is reported if and only if the invocation exited itself. -/
  exits : result.ReportsExit ↔ v.ownExit ≠ none
  /-- Its own exit is reported with the code of its reason and with its site, and is recorded with
  its site, its value and the captured values. -/
  own : ∀ r, v.ownExit = some r → result.Reports r ∧ record = r
  /-- Without an exit, the value of the native code is returned. -/
  returns : ∀ value, v.returned = some value → v.ownExit = none → result = ⟨.ok (), value⟩

/-- The condition for that: the native code exited, or the inner invocations left no exit, or the
own assumption exited and they left no captured values. -/
def Undisturbed (v : Invocation) : Prop :=
  v.exit ≠ none ∨ v.inner.reason = .none ∨ (v.deoptimized ≠ none ∧ v.inner.captured = [])

/-- The record of the context while an invocation runs: the exit of its native code, else what the
inner invocations left. -/
def nativeRecord (v : Invocation) : ExitRecord := v.exit.getD v.inner

end Invocation

/-- A result that reports a record reports that there was an exit. -/
lemma InvocationResult.Reports.reportsExit {result : InvocationResult} {r : ExitRecord}
    (h : result.Reports r) : result.ReportsExit := by
  obtain ⟨-, status, hstatus, hcode, -⟩ := h
  refine ⟨status, hstatus, ?_⟩
  cases hreason : r.reason <;> simp_all [exitStatusCode]

/-- Without an exit in the record, the value is the result. -/
lemma finishInvocation_of_none {value : Word} {x : NativeContext}
    (h : x.exitRecord.reason = .none) : finishInvocation value x.record = ⟨.ok (), value⟩ := by
  have hreason : x.record.exitReason = .none := h
  simp [finishInvocation, hreason]

/-- An exit in the record is what is reported. -/
lemma reports_finishInvocation {x : NativeContext} (h : x.exitRecord.reason ≠ .none) :
    (finishInvocation 0 x.record).Reports x.exitRecord := by
  have hreason : x.record.exitReason ≠ .none := h
  unfold finishInvocation InvocationResult.Reports NativeContext.exitRecord
  cases hcase : x.record.exitReason with
  | none => exact absurd hcase hreason
  | safepoint => exact ⟨rfl, _, rfl, rfl, rfl⟩
  | runtime => exact ⟨rfl, _, rfl, rfl, rfl⟩

/-- The exit of an assumption is reported at its site, whatever was captured before. -/
lemma reports_recordExit (x : NativeContext) (site : Nat) (captured : List Word) :
    (finishInvocation 0 (x.recordExit .runtime site 0).record).Reports
      { reason := .runtime, site := site, captured := captured } :=
  ⟨rfl, _, rfl, rfl, rfl⟩

namespace InvocationSystem

/-- A record without an exit is a cleared record. -/
def Clear (r : ExitRecord) : Prop := r.reason = .none → r = {}

/-- An invocation that its own assumption ended. -/
lemma transparent_deoptimized {v : Invocation} {result : InvocationResult} {site : Nat}
    (hsite : v.deoptimized = some site)
    (hreports : ∀ captured, result.Reports
      { reason := .runtime, site := site, captured := captured }) (hinner : Clear v.inner) :
    v.Transparent result
        { reason := .runtime, site := site, captured := v.nativeRecord.captured } ↔
      v.Undisturbed := by
  have hown : v.ownExit =
      some { reason := .runtime, site := site, captured := (v.exit.map (·.captured)).getD [] } := by
    simp [Invocation.ownExit, hsite]
  -- Only the captured values of the record can be those of another invocation.
  have htransparent : v.Transparent result
      { reason := .runtime, site := site, captured := v.nativeRecord.captured } ↔
        v.nativeRecord.captured = (v.exit.map (·.captured)).getD [] := by
    constructor
    · intro h
      exact congrArg ExitRecord.captured (h.own _ hown).2
    · intro heq
      refine ⟨by simp [hown, (hreports []).reportsExit], ?_, by simp [hown]⟩
      intro r hr
      obtain rfl := Option.some.inj (hown.symm.trans hr)
      exact ⟨hreports _, by rw [heq]⟩
  rw [htransparent]
  cases hexit : v.exit with
  | some e => simp [Invocation.Undisturbed, Invocation.nativeRecord, hexit]
  | none =>
      have hiff : v.inner.captured = [] ↔ v.inner.reason = .none ∨ v.inner.captured = [] := by
        constructor
        · exact .inr
        · intro h
          rcases h with h | h
          · rw [hinner h]
          · exact h
      simpa [Invocation.Undisturbed, Invocation.nativeRecord, hsite, hexit] using hiff

/-- An invocation whose assumptions held to the end. -/
lemma transparent_completed {v : Invocation} {value : Word} {x : NativeContext}
    (hsite : v.deoptimized = none) (hrecord : x.exitRecord = v.nativeRecord)
    (hexits : ∀ e, v.exit = some e → e.reason ≠ .none ∧ value = 0)
    (hreturned : v.exit = none → v.returned = some value) :
    v.Transparent (finishInvocation value x.record) v.nativeRecord ↔ v.Undisturbed := by
  have hown : v.ownExit = v.exit := by simp [Invocation.ownExit, hsite]
  cases hexit : v.exit with
  | some e =>
      obtain ⟨hreason, rfl⟩ := hexits e hexit
      have hnative : v.nativeRecord = e := by simp [Invocation.nativeRecord, hexit]
      have hreports := reports_finishInvocation (x := x) (by rw [hrecord, hnative]; exact hreason)
      rw [hrecord, hnative] at hreports
      refine iff_of_true ⟨?_, ?_, ?_⟩ (.inl (by simp [hexit]))
      · exact iff_of_true hreports.reportsExit (by simp [hown, hexit])
      · intro r hr
        obtain rfl : e = r := Option.some.inj ((hown.trans hexit).symm.trans hr)
        exact ⟨hreports, hnative⟩
      · intro _ _ hnone
        simp [hown, hexit] at hnone
  | none =>
      have hnative : v.nativeRecord = v.inner := by simp [Invocation.nativeRecord, hexit]
      rw [hnative] at hrecord ⊢
      have hundisturbed : v.Undisturbed ↔ v.inner.reason = .none := by
        simp [Invocation.Undisturbed, hexit, hsite]
      rw [hundisturbed]
      constructor
      · intro h
        by_contra hreason
        have hreport : (finishInvocation value x.record).ReportsExit := by
          have hcase : x.record.exitReason ≠ .none := by
            intro hnone
            exact hreason (hrecord ▸ hnone)
          unfold finishInvocation InvocationResult.ReportsExit
          cases hx : x.record.exitReason <;> simp_all
        exact h.exits.mp hreport (hown.trans hexit)
      · intro hreason
        have hok : finishInvocation value x.record = ⟨.ok (), value⟩ :=
          finishInvocation_of_none (by rw [hrecord, hreason])
        rw [hok]
        refine ⟨?_, ?_, ?_⟩
        · simp [hown, hexit, InvocationResult.ReportsExit]
        · intro r hr
          simp [hown, hexit] at hr
        · intro value' hvalue' _
          obtain rfl := Option.some.inj ((hreturned hexit).symm.trans hvalue')
          rfl

/-- What the record of the context says of a prepared invocation, at each stage. -/
structure Recorded (v : Invocation) (r : ExitRecord) : Prop where
  clear : Clear r
  inner : Clear v.inner
  exits : ∀ e, v.exit = some e → e.reason ≠ .none
  activating : v.stage = .activating →
    r = {} ∧ v.exit = none ∧ v.inner = {} ∧ v.deoptimized = none ∧ v.returned = none
  native : v.stage = .native → r = v.inner ∧ v.exit = none ∧ v.deoptimized = none
  checking : ∀ value position, v.stage = .checking value position →
    r = v.nativeRecord ∧ v.deoptimized = none ∧ (∀ e, v.exit = some e → value = 0) ∧
      (v.exit = none → v.returned = some value)
  finished : ∀ result, v.stage = .finished result → (v.Transparent result r ↔ v.Undisturbed)

/-- An invocation that has done nothing yet. -/
structure Fresh (v : Invocation) : Prop where
  exit : v.exit = none
  deoptimized : v.deoptimized = none
  inner : v.inner = {}
  returned : v.returned = none

variable {s s' : InvocationSystem} {c : ContextId} {e : InvocationEvent}

/-- What an invocation that is finished reports, and the record it leaves. -/
lemma Recorded.finish {v : Invocation} {result : InvocationResult} {r : ExitRecord}
    (hclear : Clear r) (hinner : Clear v.inner) (hexits : ∀ e, v.exit = some e → e.reason ≠ .none)
    (hfinished : v.Transparent result r ↔ v.Undisturbed) (hstage : v.stage = .finished result) :
    Recorded v r := by
  refine ⟨hclear, hinner, hexits, by simp [hstage], by simp [hstage], by simp [hstage], ?_⟩
  intro result' hresult'
  obtain rfl : result = result' := by simpa [hstage] using hresult'
  exact hfinished

/-- **Step.** Every turn of a prepared invocation keeps the record in step with it. -/
lemma Recorded.turn {v v' : Invocation} {x : NativeContext} {p : AssumptionSystem}
    (hregistered : s.protocol.Registered) (hfresh : v.stage = .loaded → Fresh v)
    (h : v.stage ≠ .loaded → Recorded v (s.contexts c).exitRecord) (hturn : Turn s c v e v' x p) :
    Recorded v' x.exitRecord := by
  cases hturn with
  | prepare stage objects free =>
      have hf := hfresh stage
      exact ⟨fun _ => rfl, by simp [Clear, hf.inner], by simp [hf.exit], by simp,
        fun _ => ⟨hf.inner.symm, hf.exit, hf.deoptimized⟩, by simp, by simp⟩
  | activate stage objects protocol =>
      have hf := hfresh stage
      exact ⟨fun _ => rfl, by simp [Clear, hf.inner], by simp [hf.exit],
        fun _ => ⟨rfl, hf.exit, hf.inner, hf.deoptimized, hf.returned⟩, by simp, by simp, by simp⟩
  | construct stage activation protocol => exact h (by simp [stage])
  | @exhaust i a status p stage activation found failed protocol =>
      have hr := h (by simp [stage])
      obtain ⟨hempty, hexit, hinner, hdeoptimized, hreturned⟩ := hr.activating stage
      refine .finish hr.clear hr.inner hr.exits (iff_of_true ⟨?_, ?_, ?_⟩ ?_) rfl
      · -- The activation ran out of memory, which is not an exit.
        have hcode := (hregistered.sound a (List.mem_of_getElem? found)).exhausted status failed
        simp [Invocation.ownExit, InvocationResult.ReportsExit, hexit, hdeoptimized, hcode]
      · simp [Invocation.ownExit, hexit, hdeoptimized]
      · simp [hreturned]
      · exact .inr (.inl (by simp [hinner]))
  | @reject i k a d p stage activation found invalid dependency protocol =>
      have hr := h (by simp [stage])
      obtain ⟨hempty, hexit, hinner, hdeoptimized, -⟩ := hr.activating stage
      refine .finish (by simp [Clear]) hr.inner hr.exits ?_ rfl
      have hiff := transparent_deoptimized
        (v := { v with deoptimized := some d.site, stage := .finished (finishInvocation 0
          ((s.contexts c).recordExit .runtime d.site 0).record) }) rfl
        (reports_recordExit (s.contexts c) d.site) hr.inner
      simpa [Invocation.nativeRecord, hexit, hinner, hempty] using hiff
  | enter stage activation protocol =>
      have hr := h (by simp [stage])
      obtain ⟨hempty, hexit, hinner, hdeoptimized, -⟩ := hr.activating stage
      exact ⟨hr.clear, hr.inner, hr.exits, by simp,
        fun _ => ⟨hempty.trans hinner.symm, hexit, hdeoptimized⟩, by simp, by simp⟩
  | poll stage => exact h (by simp [stage])
  | @exitNative e p stage reason protocol =>
      have hr := h (by simp [stage])
      obtain ⟨-, -, hdeoptimized⟩ := hr.native stage
      refine ⟨?_, hr.inner, ?_, by simp, by simp, ?_, by simp⟩
      · intro hnone
        simp only [NativeContext.exitRecord_exitNative] at hnone
        exact absurd hnone reason
      · intro e' he'
        obtain rfl := Option.some.inj he'
        exact reason
      · intro value position hvalue
        obtain ⟨rfl, -⟩ := InvocationStage.checking.inj hvalue
        exact ⟨by simp [Invocation.nativeRecord], hdeoptimized, fun _ _ => rfl, by simp⟩
  | returnNative stage protocol =>
      have hr := h (by simp [stage])
      obtain ⟨hrecord, hexit, hdeoptimized⟩ := hr.native stage
      refine ⟨hr.clear, hr.inner, hr.exits, by simp, by simp, ?_, by simp⟩
      intro value position hvalue
      obtain ⟨rfl, -⟩ := InvocationStage.checking.inj hvalue
      exact ⟨by simp [Invocation.nativeRecord, hexit, hrecord], hdeoptimized, by simp [hexit],
        fun _ => rfl⟩
  | @check value position d stage dependency valid =>
      have hr := h (by simp [stage])
      refine ⟨hr.clear, hr.inner, hr.exits, by simp, by simp, ?_, by simp⟩
      intro value' position' hvalue
      obtain ⟨rfl, -⟩ := InvocationStage.checking.inj hvalue
      exact hr.checking value position stage
  | @deoptimize value position d p stage dependency invalid protocol =>
      have hr := h (by simp [stage])
      obtain ⟨hrecord, hdeoptimized, -, -⟩ := hr.checking value position stage
      refine .finish (by simp [Clear]) hr.inner hr.exits ?_ rfl
      have hiff := transparent_deoptimized
        (v := { v with deoptimized := some d.site, stage := .finished (finishInvocation 0
          ((s.contexts c).recordExit .runtime d.site 0).record) }) rfl
        (reports_recordExit (s.contexts c) d.site) hr.inner
      simpa [hrecord, Invocation.nativeRecord] using hiff
  | @complete value position p stage last protocol =>
      have hr := h (by simp [stage])
      obtain ⟨hrecord, hdeoptimized, hzero, hreturned⟩ := hr.checking value position stage
      refine .finish hr.clear hr.inner hr.exits ?_ rfl
      have hiff := transparent_completed (v := { v with
        stage := .finished (finishInvocation value (s.contexts c).record) }) hdeoptimized
        hrecord (fun e he => ⟨hr.exits e he, hzero e he⟩) hreturned
      simpa [hrecord, Invocation.nativeRecord] using hiff
  | release stage activation protocol => exact h (by simp [stage])

/-- The invocations in progress on a context and its record: all but the innermost run native code,
and the record belongs to the innermost that is prepared. -/
structure Nested (calls : List Invocation) (r : ExitRecord) : Prop where
  clear : Clear r
  outer : ∀ v ∈ calls.tail, v.stage = .native ∧ v.exit = none ∧ v.deoptimized = none
  fresh : ∀ v ∈ calls.head?, v.stage = .loaded → Fresh v
  recorded : ∀ v ∈ calls.head?, v.stage ≠ .loaded → Recorded v r
  suspended : ∀ v ∈ calls.head?, v.stage = .loaded → ∀ w ∈ calls.tail.head?, Recorded w r

lemma nested_nil {r : ExitRecord} (hclear : Clear r) : Nested [] r :=
  ⟨hclear, by simp, by simp, by simp, by simp⟩

/-- A turn keeps the records nested. -/
lemma Nested.turn {v v' : Invocation} {rest : List Invocation} {x : NativeContext}
    {p : AssumptionSystem} (h : Nested (v :: rest) (s.contexts c).exitRecord)
    (hregistered : s.protocol.Registered) (hturn : Turn s c v e v' x p) :
    Nested (v' :: rest) x.exitRecord := by
  have hrecorded : Recorded v' x.exitRecord :=
    Recorded.turn hregistered (h.fresh v (by simp)) (h.recorded v (by simp)) hturn
  have hstage : v'.stage ≠ .loaded := by
    cases hturn <;> simp_all
  refine ⟨hrecorded.clear, h.outer, ?_, ?_, ?_⟩
  · intro w hw hloaded
    obtain rfl : v' = w := by simpa using hw
    exact absurd hloaded hstage
  · intro w hw _
    obtain rfl : v' = w := by simpa using hw
    exact hrecorded
  · intro w hw hloaded
    obtain rfl : v' = w := by simpa using hw
    exact absurd hloaded hstage

/-- A new call keeps the records nested. -/
lemma Nested.invoke {tables : FastCallTables} {f : CompiledCode} {argCount : Nat} {argsNull : Bool}
    {v : Invocation} {calls : List Invocation} {r : ExitRecord} (h : Nested calls r)
    (hidle : ∀ w ∈ calls.head?, w.stage = .native)
    (hbegun : beginInvocation tables f argCount argsNull = .ok v) : Nested (v :: calls) r := by
  have hv : v.stage = .loaded ∧ Fresh v := by
    rcases beginInvocation_eq_ok hbegun with ⟨-, rfl⟩ | ⟨-, -, rfl⟩ <;>
      exact ⟨rfl, rfl, rfl, rfl, rfl⟩
  have hrecorded : ∀ w ∈ calls.head?, Recorded w r := by
    intro w hw
    exact h.recorded w hw (by simp [hidle w hw])
  refine ⟨h.clear, ?_, ?_, ?_, ?_⟩
  · intro w hw
    cases calls with
    | nil => simp at hw
    | cons u us =>
        rcases List.mem_cons.mp hw with rfl | hw
        · have hstage := hidle w (by simp)
          obtain ⟨-, hexit, hdeoptimized⟩ := (hrecorded w (by simp)).native hstage
          exact ⟨hstage, hexit, hdeoptimized⟩
        · exact h.outer w hw
  · intro w hw _
    obtain rfl : v = w := by simpa using hw
    exact hv.2
  · intro w hw hne
    obtain rfl : v = w := by simpa using hw
    exact absurd hv.1 hne
  · intro w _ _ u hu
    exact hrecorded u hu

/-- An invocation that is rejected by its checks leaves the outer one as it was. -/
lemma Nested.drop {v : Invocation} {rest : List Invocation} {r : ExitRecord}
    (h : Nested (v :: rest) r) (hstage : v.stage = .loaded) : Nested rest r := by
  have houter : ∀ w ∈ rest.head?, w.stage = .native := by
    intro w hw
    exact (h.outer w (List.mem_of_mem_head? hw)).1
  refine ⟨h.clear, ?_, ?_, ?_, ?_⟩
  · intro w hw
    exact h.outer w (List.mem_of_mem_tail hw)
  · intro w hw hloaded
    simp [houter w hw] at hloaded
  · intro w hw _
    exact h.suspended v (by simp) hstage w hw
  · intro w hw hloaded
    simp [houter w hw] at hloaded

/-- The outer invocation goes on with the record that the inner one left. -/
lemma Nested.leave {v outer : Invocation} {rest : List Invocation} {r : ExitRecord}
    (h : Nested (v :: outer :: rest) r) : Nested ({ outer with inner := r } :: rest) r := by
  obtain ⟨hstage, hexit, hdeoptimized⟩ := h.outer outer (by simp)
  have hrecorded : Recorded { outer with inner := r } r :=
    ⟨h.clear, h.clear, by simp [hexit], by simp [hstage], fun _ => ⟨rfl, hexit, hdeoptimized⟩,
      by simp [hstage], by simp [hstage]⟩
  refine ⟨h.clear, ?_, ?_, ?_, ?_⟩
  · intro w hw
    exact h.outer w (List.mem_cons_of_mem outer hw)
  · simp [hstage]
  · intro w hw _
    obtain rfl : { outer with inner := r } = w := by simpa using hw
    exact hrecorded
  · simp [hstage]

/-- **Step.** Every move keeps the records in step with the invocations. -/
lemma nested_move (hregistered : s.protocol.Registered)
    (h : ∀ c, Nested (s.calls c) (s.contexts c).exitRecord) (hmove : Move s e s') (c : ContextId) :
    Nested (s'.calls c) (s'.contexts c).exitRecord := by
  cases hmove with
  | rejected c' f argCount argsNull => exact h c
  | @invoke c' f argCount argsNull v idle begun =>
      by_cases hc : c = c'
      · subst hc
        have hidle : ∀ w ∈ (s.calls c).head?, w.stage = .native := by
          intro w hw
          unfold mayInvoke at idle
          cases hcalls : s.calls c with
          | nil => simp [hcalls] at hw
          | cons u us =>
              obtain rfl : u = w := by simpa [hcalls] using hw
              cases hstage : u.stage <;> simp_all
        simpa [setStack] using (h c).invoke hidle begun
      · simpa [setStack, hc] using h c
  | @drop c' v rest calls stage =>
      by_cases hc : c = c'
      · subst hc
        have hnested := h c
        rw [calls] at hnested
        simpa [setStack] using hnested.drop stage
      · simpa [setStack, hc] using h c
  | @turn c' v v' rest _ x p calls turn =>
      by_cases hc : c = c'
      · subst hc
        have hnested := h c
        rw [calls] at hnested
        simpa [setStack, setContext] using hnested.turn hregistered turn
      · simpa [setStack, setContext, hc] using h c
  | @leave c' v rest result calls stage released =>
      by_cases hc : c = c'
      · subst hc
        have hnested := h c
        rw [calls] at hnested
        cases rest with
        | nil => simpa [InvocationSystem.leave, setStack] using nested_nil hnested.clear
        | cons outer rest => simpa [InvocationSystem.leave, setStack] using hnested.leave
      · cases rest <;> simpa [InvocationSystem.leave, setStack, hc] using h c
  | outside outside => exact h c
  | fastCall step => exact h c
  | bind c' regions objects oracles =>
      by_cases hc : c = c'
      · subst hc
        simp only [setContext, Function.update_self]
        exact h c
      · simpa [setContext, hc] using h c

/-- **Run.** The records are in step with the invocations in every state. -/
lemma nested_afterEvents {events : List InvocationEvent}
    (hrun : afterEvents step {} events = some s) (c : ContextId) :
    Nested (s.calls c) (s.contexts c).exitRecord := by
  have hboth : s.protocol.Registered ∧ ∀ c, Nested (s.calls c) (s.contexts c).exitRecord := by
    refine invariant (I := fun s => s.protocol.Registered ∧
      ∀ c, Nested (s.calls c) (s.contexts c).exitRecord) ?_ ?_ hrun
    · intro s e s' h hstep
      have hmove := step_move hstep
      exact ⟨hmove.registered h.1, nested_move h.1 h.2 hmove⟩
    · exact ⟨AssumptionSystem.registered_start _, fun _ => nested_nil fun _ => rfl⟩
  exact hboth.2 c

/-- **Nested invocations.** In every state that a run reaches, the bindings of a context are those
of the invocations in progress, so they are again those of the outer one when an inner one has
returned. An invocation that is finished reports and records its own exit, and no other, and returns
the value of its native code when it has none, if and only if its native code exited, or the last
inner invocation that got past its checks left no exit in the context, or its own assumption exited
and that exit has no captured values. -/
theorem nested_invocations (events : List InvocationEvent) (s : InvocationSystem)
    (hrun : afterEvents step {} events = some s) (c : ContextId) :
    (s.contexts c).bindings = bindingsOf (s.calls c) ∧
    ∀ v rest result, s.calls c = v :: rest → v.stage = .finished result →
      (v.Transparent result (s.contexts c).exitRecord ↔ v.Undisturbed) := by
  refine ⟨(bound_afterEvents hrun c).bindings, ?_⟩
  intro v rest result hcalls hstage
  have hnested := nested_afterEvents hrun c
  have hrecorded := hnested.recorded v (by simp [hcalls]) (by simp [hstage])
  exact hrecorded.finished result hstage

/-- The outer function. -/
def sampleOuter : CompiledCode where
  number := 1
  entry := 32

/-- The function its helper invokes. -/
def sampleInner : CompiledCode where
  number := 2
  entry := 64
  requiresContext := true

/-- A helper of the outer invocation makes an inner one, which ends with the event `inner`; the
outer one then ends with the event `outer`. -/
def sampleNesting (inner outer : InvocationEvent) : List InvocationEvent :=
  [.invoke 0 sampleOuter 0 false, .prepare 0, .invoke 0 sampleInner 0 false, .prepare 0, inner,
    .check 0, .leave 0, outer, .check 0]

/-- The exit of the inner function: its guard fails at site 5. -/
def sampleInnerExit : ExitRecord := { reason := .runtime, site := 5, captured := [6, 7] }

/-- The exit of the outer function. -/
def sampleOuterExit : ExitRecord := { reason := .runtime, site := 9, value := 3, captured := [8] }

/-- When inner and outer function return, the value of the outer one is returned; and when both
exit, the exit of the outer one is reported and recorded. -/
theorem nested_invocations_sample :
    (∃ s v, afterEvents step {} (sampleNesting (.returnNative 0 7) (.returnNative 0 42)) = some s ∧
      s.calls 0 = [v] ∧ v.stage = .finished ⟨.ok (), 42⟩) ∧
    ∃ s v result, afterEvents step {} (sampleNesting (.exitNative 0 sampleInnerExit)
        (.exitNative 0 sampleOuterExit)) = some s ∧
      s.calls 0 = [v] ∧ v.stage = .finished result ∧ result.Reports sampleOuterExit ∧
      (s.contexts 0).exitRecord = sampleOuterExit := by
  constructor
  · obtain ⟨s, v, result, hrun, hcalls, hstage, hinner, hreturned, hown⟩ : ∃ s v result,
        afterEvents step {} (sampleNesting (.returnNative 0 7) (.returnNative 0 42)) = some s ∧
          s.calls 0 = [v] ∧ v.stage = .finished result ∧ v.inner.reason = .none ∧
          v.returned = some 42 ∧ v.ownExit = none :=
      ⟨_, _, _, rfl, rfl, rfl, rfl, rfl, rfl⟩
    have htransparent := ((nested_invocations _ s hrun 0).2 v [] result hcalls hstage).mpr
      (.inr (.inl hinner))
    obtain rfl := htransparent.returns 42 hreturned hown
    exact ⟨s, v, hrun, hcalls, hstage⟩
  · obtain ⟨s, v, result, hrun, hcalls, hstage, hexit, hown⟩ : ∃ s v result,
        afterEvents step {} (sampleNesting (.exitNative 0 sampleInnerExit)
          (.exitNative 0 sampleOuterExit)) = some s ∧
          s.calls 0 = [v] ∧ v.stage = .finished result ∧ v.exit = some sampleOuterExit ∧
          v.ownExit = some sampleOuterExit :=
      ⟨_, _, _, rfl, rfl, rfl, rfl, rfl⟩
    have htransparent := ((nested_invocations _ s hrun 0).2 v [] result hcalls hstage).mpr
      (.inl (by simp [hexit]))
    obtain ⟨hreports, hrecord⟩ := htransparent.own _ hown
    exact ⟨s, v, result, hrun, hcalls, hstage, hreports, hrecord⟩

/-- The guard of an inner function fails at site 5; the outer invocation, which returns 42, reports
an exit at that site. -/
theorem nested_invocation_reports_inner_exit :
    ¬ ∀ (events : List InvocationEvent) (s : InvocationSystem),
      afterEvents step {} events = some s → ∀ c v rest result, s.calls c = v :: rest →
        v.stage = .finished result → v.Transparent result (s.contexts c).exitRecord := by
  intro h
  have htransparent := h (sampleNesting (.exitNative 0 sampleInnerExit) (.returnNative 0 42)) _ rfl
    0 _ [] _ rfl rfl
  have hown := htransparent.exits.mp ⟨_, rfl, .inl rfl⟩
  exact hown rfl

end InvocationSystem

end UniJit.Jit
