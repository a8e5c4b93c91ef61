import UniJit.Jit.InvocationMoves

/-!
# Bindings and snapshots of nested invocations

The invocations in progress on a context install their patch cells and fast-call entries over each
other. The bindings of the context are at any time those that the installed invocations make,
from the outermost to the innermost, so an invocation that goes on after an inner one finds its own
bindings. Its fast calls go through one snapshot from its beginning to its end.
-/

namespace UniJit.Jit

open UniJit.Ir UniJit.Lib UniJit.Lib.Transitions UniJit.Runtime

/-! ## Bindings -/

namespace Invocation

/-- Whether the bindings of an invocation are installed. -/
def installed (v : Invocation) : Bool :=
  match v.stage with
  | .activating | .native | .checking _ _ => true
  | .loaded | .finished _ => false

end Invocation

/-- The bindings that the invocations in progress make, the innermost first. -/
def bindingsOf : List Invocation → RuntimeBindings
  | [] => {}
  | v :: rest => if v.installed then v.install (bindingsOf rest) else bindingsOf rest

/-- Every installed invocation has saved the bindings of those outside it. -/
def Saved : List Invocation → Prop
  | [] => True
  | v :: rest => (v.installed → v.previous = v.save (bindingsOf rest)) ∧ Saved rest

namespace InvocationSystem

/-- The context of a stack of invocations has their bindings. -/
structure Bound (calls : List Invocation) (x : NativeContext) : Prop where
  bindings : x.bindings = bindingsOf calls
  saved : Saved calls

variable {s s' : InvocationSystem} {c : ContextId} {e : InvocationEvent}

/-- The changes of the innermost invocation that keep its bindings installed. -/
lemma Bound.keep {v v' : Invocation} {rest : List Invocation} {x x' : NativeContext}
    (h : Bound (v :: rest) x) (hinstalled : v'.installed = v.installed)
    (hcode : v'.code = v.code) (hsnapshot : v'.snapshot = v.snapshot)
    (hprevious : v'.previous = v.previous) (hbindings : x'.bindings = x.bindings) :
    Bound (v' :: rest) x' := by
  have hinstall : v'.install = v.install := by
    funext b
    simp only [Invocation.install, hcode, hsnapshot]
  have hsave : v'.save = v.save := by
    funext b
    simp only [Invocation.save, hcode, hsnapshot]
  constructor
  · rw [hbindings, h.bindings]
    simp only [bindingsOf, hinstalled, hinstall]
  · have hsaved := h.saved
    simp only [Saved, hinstalled, hprevious, hsave] at hsaved ⊢
    exact hsaved

/-- Preparing a context saves its bindings and installs those of the invocation. -/
lemma Bound.prepare {v v' : Invocation} {rest : List Invocation} {x x' : NativeContext}
    (h : Bound (v :: rest) x) (hstage : v.stage = .loaded) (hinstalled : v'.installed = true)
    (hcode : v'.code = v.code) (hsnapshot : v'.snapshot = v.snapshot)
    (hprevious : v'.previous = v.save x.bindings) (hbindings : x'.bindings = v.install x.bindings) :
    Bound (v' :: rest) x' := by
  have hbefore : x.bindings = bindingsOf rest := by
    simpa [bindingsOf, Invocation.installed, hstage] using h.bindings
  constructor
  · rw [hbindings, hbefore]
    simp only [bindingsOf, hinstalled, if_true, Invocation.install, hcode, hsnapshot]
  · refine ⟨?_, h.saved.2⟩
    intro _
    rw [hprevious, hbefore]
    simp only [Invocation.save, hcode, hsnapshot]

/-- Finishing an invocation gives the bindings outside it back. -/
lemma Bound.restore {v v' : Invocation} {rest : List Invocation} {x x' : NativeContext}
    (h : Bound (v :: rest) x) (hinstalled : v.installed = true) (hfinished : v'.installed = false)
    (hbindings : x'.bindings = v.restore x.bindings) : Bound (v' :: rest) x' := by
  constructor
  · have hbefore : x.bindings = v.install (bindingsOf rest) := by
      simpa [bindingsOf, hinstalled] using h.bindings
    rw [hbindings, hbefore, Invocation.restore_install (h.saved.1 hinstalled)]
    simp [bindingsOf, hfinished]
  · refine ⟨?_, h.saved.2⟩
    intro hinstalled'
    rw [hfinished] at hinstalled'
    simp at hinstalled'

/-- **Step.** Every turn of an invocation keeps the bindings in step with the stack. -/
lemma Bound.turn {v v' : Invocation} {rest : List Invocation} {x : NativeContext}
    {p : AssumptionSystem} (h : Bound (v :: rest) (s.contexts c)) (hturn : Turn s c v e v' x p) :
    Bound (v' :: rest) x := by
  cases hturn with
  | prepare stage objects free => exact h.prepare stage rfl rfl rfl rfl rfl
  | activate stage objects protocol => exact h.prepare stage rfl rfl rfl rfl rfl
  | construct stage activation protocol => exact h
  | exhaust stage activation found failed protocol =>
      exact h.restore (by simp [Invocation.installed, stage]) rfl rfl
  | reject stage activation found invalid dependency protocol =>
      exact h.restore (by simp [Invocation.installed, stage]) rfl rfl
  | enter stage activation protocol =>
      exact h.keep (by simp [Invocation.installed, stage]) rfl rfl rfl rfl
  | poll stage => exact h.keep rfl rfl rfl rfl rfl
  | exitNative stage reason protocol =>
      exact h.keep (by simp [Invocation.installed, stage]) rfl rfl rfl rfl
  | returnNative stage protocol =>
      exact h.keep (by simp [Invocation.installed, stage]) rfl rfl rfl rfl
  | check stage dependency valid =>
      exact h.keep (by simp [Invocation.installed, stage]) rfl rfl rfl rfl
  | deoptimize stage dependency invalid protocol =>
      exact h.restore (by simp [Invocation.installed, stage]) rfl rfl
  | complete stage last protocol =>
      exact h.restore (by simp [Invocation.installed, stage]) rfl rfl
  | release stage activation protocol => exact h

/-- A new call keeps the bindings right. -/
lemma Bound.invoke {tables : FastCallTables} {f : CompiledCode} {argCount : Nat} {argsNull : Bool}
    {v : Invocation} {calls : List Invocation} {x : NativeContext} (h : Bound calls x)
    (hbegun : beginInvocation tables f argCount argsNull = .ok v) : Bound (v :: calls) x := by
  have hstage : v.installed = false := by
    rcases beginInvocation_eq_ok hbegun with ⟨-, rfl⟩ | ⟨-, -, rfl⟩ <;> rfl
  constructor
  · simpa [bindingsOf, hstage] using h.bindings
  · refine ⟨?_, h.saved⟩
    simp [hstage]

/-- A call that has restored its bindings may return. -/
lemma Bound.pop {v : Invocation} {rest : List Invocation} {x : NativeContext}
    (h : Bound (v :: rest) x) (hinstalled : v.installed = false) : Bound rest x := by
  refine ⟨?_, h.saved.2⟩
  simpa [bindingsOf, hinstalled] using h.bindings

/-- What the outer invocation learns from an inner one has no part in the bindings. -/
lemma Bound.setInner {v : Invocation} {rest : List Invocation} {x : NativeContext}
    (h : Bound (v :: rest) x) (r : ExitRecord) : Bound ({ v with inner := r } :: rest) x :=
  h.keep rfl rfl rfl rfl rfl

/-- **Step.** Every move keeps the bindings of every context. -/
lemma bound_move (h : ∀ c, Bound (s.calls c) (s.contexts c)) (hmove : Move s e s') (c : ContextId) :
    Bound (s'.calls c) (s'.contexts c) := by
  cases hmove with
  | rejected c' f argCount argsNull => exact h c
  | @invoke c' f argCount argsNull v idle begun =>
      by_cases hc : c = c'
      · subst hc
        simpa [setStack] using (h c).invoke begun
      · simpa [setStack, hc] using h c
  | @drop c' v rest calls stage =>
      by_cases hc : c = c'
      · subst hc
        have hbound := h c
        rw [calls] at hbound
        simpa [setStack] using hbound.pop (by simp [Invocation.installed, stage])
      · simpa [setStack, hc] using h c
  | @turn c' v v' rest _ x p calls turn =>
      by_cases hc : c = c'
      · subst hc
        have hbound := h c
        rw [calls] at hbound
        simpa [setStack, setContext] using hbound.turn turn
      · simpa [setStack, setContext, hc] using h c
  | @leave c' v rest result calls stage released =>
      by_cases hc : c = c'
      · subst hc
        have hbound := h c
        rw [calls] at hbound
        have hrest := hbound.pop (by simp [Invocation.installed, stage])
        cases rest with
        | nil => simpa [InvocationSystem.leave, setStack] using hrest
        | cons outer rest => simpa [InvocationSystem.leave, setStack] using hrest.setInner _
      · cases rest <;> simpa [InvocationSystem.leave, setStack, hc] using h c
  | outside outside => exact h c
  | fastCall step => exact h c
  | bind c' regions objects oracles =>
      by_cases hc : c = c'
      · subst hc
        have hbound := h c
        simp only [setContext, Function.update_self]
        exact ⟨hbound.bindings, hbound.saved⟩
      · simpa [setContext, hc] using h c

/-- At the start the bindings are right. -/
lemma bound_start (c : ContextId) :
    Bound (({} : InvocationSystem).calls c) (({} : InvocationSystem).contexts c) :=
  ⟨rfl, trivial⟩

/-- **Run.** In every state the bindings of a context are those of its invocations in progress. -/
lemma bound_afterEvents {events : List InvocationEvent} (hrun : afterEvents step {} events = some s)
    (c : ContextId) : Bound (s.calls c) (s.contexts c) :=
  invariant (I := fun s => ∀ c, Bound (s.calls c) (s.contexts c))
    (fun _ _ _ h hstep => bound_move h (step_move hstep)) bound_start hrun c

/-! ## Snapshots -/

/-- A function with fast calls runs on a snapshot in which every slot is bound. -/
structure Snapped (v : Invocation) : Prop where
  taken : v.snapshot = none ↔ v.code.fastCalls = []
  consistent : ∀ t, v.snapshot = some t → t.Consistent v.code ∧ none ∉ t.entries

/-- An invocation keeps its snapshot as it goes on. -/
lemma Snapped.congr {v v' : Invocation} (h : Snapped v) (hcode : v'.code = v.code)
    (hsnapshot : v'.snapshot = v.snapshot) : Snapped v' := by
  constructor
  · rw [hcode, hsnapshot]
    exact h.taken
  · rw [hcode, hsnapshot]
    exact h.consistent

/-- A turn keeps code and snapshot. -/
lemma Turn.snapshot {v v' : Invocation} {x : NativeContext} {p : AssumptionSystem}
    (h : Turn s c v e v' x p) : v'.code = v.code ∧ v'.snapshot = v.snapshot := by
  cases h <;> exact ⟨rfl, rfl⟩

/-- The tables are consistent, and so are the snapshots of the invocations in progress. -/
structure Snapshots (s : InvocationSystem) : Prop where
  tables : s.fastCalls.Sound
  calls : ∀ c, ∀ v ∈ s.calls c, Snapped v

/-- A stack that is changed on one context. -/
lemma mem_setStack {calls : List Invocation} {c' : ContextId} {v : Invocation}
    (h : v ∈ (s.setStack c calls).calls c') : v ∈ calls ∨ v ∈ s.calls c' := by
  by_cases hc : c' = c
  · subst hc
    exact .inl (by simpa [setStack] using h)
  · exact .inr (by simpa [setStack, hc] using h)

/-- Exchanging calls keeps the snapshots. -/
lemma Snapshots.setStack (h : s.Snapshots) {calls : List Invocation}
    (hcalls : ∀ v ∈ calls, Snapped v) : (s.setStack c calls).Snapshots := by
  refine ⟨h.tables, ?_⟩
  intro c' v hv
  rcases mem_setStack hv with hv | hv
  · exact hcalls v hv
  · exact h.calls c' v hv

/-- **Step.** Every move keeps tables and snapshots consistent. -/
lemma Snapshots.move (h : s.Snapshots) (hmove : Move s e s') : s'.Snapshots := by
  cases hmove with
  | rejected c' f argCount argsNull => exact h
  | @invoke c f argCount argsNull v idle begun =>
      apply h.setStack
      intro w hw
      rcases List.mem_cons.mp hw with rfl | hw
      · rcases beginInvocation_eq_ok begun with ⟨hnil, rfl⟩ | ⟨hne, hbound, rfl⟩
        · exact ⟨by simp [hnil], by simp⟩
        · refine ⟨by simp [hne], ?_⟩
          intro t ht
          obtain rfl := Option.some.inj ht
          exact ⟨h.tables.published f, hbound⟩
      · exact h.calls c w hw
  | @drop c v rest calls stage =>
      apply h.setStack
      intro w hw
      exact h.calls c w (calls ▸ List.mem_cons_of_mem v hw)
  | @turn c v v' rest _ x p calls turn =>
      have hcalls := h.calls c
      rw [calls] at hcalls
      have hsame : ({ s with protocol := p }.setContext c x).Snapshots := ⟨h.tables, h.calls⟩
      apply hsame.setStack
      intro w hw
      rcases List.mem_cons.mp hw with rfl | hw
      · exact (hcalls v (by simp)).congr turn.snapshot.1 turn.snapshot.2
      · exact hcalls w (List.mem_cons_of_mem v hw)
  | @leave c v rest result calls stage released =>
      have hcalls := h.calls c
      rw [calls] at hcalls
      cases rest with
      | nil => exact h.setStack (by simp)
      | cons outer rest =>
          apply h.setStack
          intro w hw
          rcases List.mem_cons.mp hw with rfl | hw
          · exact (hcalls outer (by simp)).congr rfl rfl
          · exact hcalls w (by simp [hw])
  | outside outside => exact ⟨h.tables, h.calls⟩
  | fastCall step => exact ⟨h.tables.step step, h.calls⟩
  | bind c' regions objects oracles => exact ⟨h.tables, h.calls⟩

lemma snapshots_start : Snapshots {} :=
  ⟨FastCallTables.sound_start, by simp⟩

/-- **Run.** Tables and snapshots are consistent in every state. -/
lemma snapshots_afterEvents {events : List InvocationEvent}
    (hrun : afterEvents step {} events = some s) : s.Snapshots :=
  invariant (fun _ _ _ h hstep => h.move (step_move hstep)) snapshots_start hrun

/-- An invocation in progress, counted from the outermost, keeps its function and its snapshot. -/
lemma Move.snapshot_kept (hmove : Move s e s') {n : Nat} {v v' : Invocation}
    (hv : (s.calls c).reverse[n]? = some v) (hv' : (s'.calls c).reverse[n]? = some v') :
    v'.code = v.code ∧ v'.snapshot = v.snapshot := by
  have hsame : ∀ {w w' : Invocation} {l : List Invocation}, l.reverse[n]? = some w →
      l.reverse[n]? = some w' → w'.code = w.code ∧ w'.snapshot = w.snapshot := by
    intro w w' l hw hw'
    obtain rfl := Option.some.inj (hw.symm.trans hw')
    exact ⟨rfl, rfl⟩
  have hlast : ∀ {w : Invocation} {l : List Invocation}, n = l.length →
      l.reverse[n]? = some w → False := by
    intro w l hn hw
    have hlt := (List.getElem?_eq_some_iff.mp hw).1
    simp only [List.length_reverse] at hlt
    omega
  cases hmove with
  | rejected c' f argCount argsNull => exact hsame hv hv'
  | @invoke c' f argCount argsNull u idle begun =>
      by_cases hc : c = c'
      · subst hc
        simp only [setStack, Function.update_self] at hv'
        rcases getElem?_reverse_cons.mp hv' with ⟨hn, -⟩ | hv'
        · exact (hlast hn hv).elim
        · exact hsame hv hv'
      · simp only [setStack, Function.update_of_ne hc] at hv'
        exact hsame hv hv'
  | @drop c' u rest calls stage =>
      by_cases hc : c = c'
      · subst hc
        simp only [setStack, Function.update_self] at hv'
        rw [calls] at hv
        rcases getElem?_reverse_cons.mp hv with ⟨hn, -⟩ | hv
        · exact (hlast hn hv').elim
        · exact hsame hv hv'
      · simp only [setStack, Function.update_of_ne hc] at hv'
        exact hsame hv hv'
  | @turn c' u u' rest _ x p calls turn =>
      by_cases hc : c = c'
      · subst hc
        simp only [setStack, Function.update_self] at hv'
        rw [calls] at hv
        rcases getElem?_reverse_cons.mp hv with ⟨hn, rfl⟩ | hv
        · rcases getElem?_reverse_cons.mp hv' with ⟨-, rfl⟩ | hv'
          · exact turn.snapshot
          · exact (hlast hn hv').elim
        · rcases getElem?_reverse_cons.mp hv' with ⟨hn, -⟩ | hv'
          · exact (hlast hn hv).elim
          · exact hsame hv hv'
      · simp only [setStack, setContext, Function.update_of_ne hc] at hv'
        exact hsame hv hv'
  | @leave c' u rest result calls stage released =>
      by_cases hc : c = c'
      · subst hc
        rw [calls] at hv
        cases rest with
        | nil =>
            simp [InvocationSystem.leave, setStack] at hv'
        | cons outer rest =>
            simp only [InvocationSystem.leave, setStack, Function.update_self] at hv'
            rcases getElem?_reverse_cons.mp hv' with ⟨hn, rfl⟩ | hv'
            · rcases getElem?_reverse_cons.mp hv with ⟨hn', -⟩ | hv
              · simp only [List.length_cons] at hn'
                omega
              · rcases getElem?_reverse_cons.mp hv with ⟨-, rfl⟩ | hv
                · exact ⟨rfl, rfl⟩
                · exact (hlast hn hv).elim
            · have hlt := (List.getElem?_eq_some_iff.mp hv').1
              rw [List.length_reverse] at hlt
              rcases getElem?_reverse_cons.mp hv with ⟨hn, -⟩ | hv
              · simp only [List.length_cons] at hn
                omega
              · rcases getElem?_reverse_cons.mp hv with ⟨hn, -⟩ | hv
                · omega
                · exact hsame hv hv'
      · cases rest <;>
          simp only [InvocationSystem.leave, setStack, Function.update_of_ne hc] at hv' <;>
          exact hsame hv hv'
  | outside outside => exact hsame hv hv'
  | fastCall step => exact hsame hv hv'
  | bind c' regions objects oracles => exact hsame hv hv'

/-! ## Fast calls -/

/-- A function calls another through a published table, or through the snapshot of an invocation
in progress. -/
def CallsThrough (s : InvocationSystem) (f g : CompiledCode) : Prop :=
  some g ∈ (s.fastCalls.targets f).leases ∨
    ∃ c, ∃ v ∈ s.calls c, ∃ t, v.code = f ∧ v.snapshot = some t ∧ some g ∈ t.leases

/-- A call through a table goes to a function that serves the slot. -/
lemma Snapshots.serves (h : s.Snapshots) {f g : CompiledCode} (hcalls : s.CallsThrough f g) :
    ∃ descriptor ∈ f.fastCalls, Serves f descriptor g := by
  rcases hcalls with hg | ⟨c, v, hv, t, rfl, ht, hg⟩
  · exact (h.tables.published f).leased hg
  · exact ((h.calls c v hv).consistent t ht).1.leased hg

/-- A function that another calls makes no fast calls itself, so every chain has one link. -/
lemma Snapshots.number_ne (h : s.Snapshots) {f g : CompiledCode}
    (hchain : Relation.TransGen s.CallsThrough f g) : f.number ≠ g.number := by
  cases hchain with
  | single hlink =>
      obtain ⟨descriptor, -, hserves⟩ := h.serves hlink
      exact hserves.distinct.symm
  | @tail b _ hbefore hlink =>
      obtain ⟨a, -, hlast⟩ := Relation.TransGen.tail'_iff.mp hbefore
      obtain ⟨_, -, hserves⟩ := h.serves hlast
      obtain ⟨_, hmem, -⟩ := h.serves hlink
      rw [hserves.fastCalls_eq_nil] at hmem
      simp at hmem

/-- An invocation of a function with an unbound slot is rejected and changes nothing. -/
lemma step_invoke_unbound {f : CompiledCode} {argCount : Nat} {argsNull : Bool}
    (hcalls : f.fastCalls ≠ []) (hunbound : none ∈ (s.fastCalls.targets f).entries)
    (hstep : s.step (.invoke c f argCount argsNull) = some s') : s' = s := by
  simp only [step, Option.ite_none_right_eq_some] at hstep
  obtain ⟨-, hbegin⟩ := hstep
  split at hbegin
  · exact (Option.some.inj hbegin).symm
  next v hv =>
    rcases beginInvocation_eq_ok hv with ⟨hnil, -⟩ | ⟨-, hbound, -⟩
    · exact absurd hnil hcalls
    · exact absurd hunbound hbound

/-- While an invocation runs native code, the context has the entries of its snapshot. -/
lemma Bound.fastCallEntries {v : Invocation} {rest : List Invocation} {x : NativeContext}
    (h : Bound (v :: rest) x) (hstage : v.stage = .native) {t : FastCallTargetTable}
    (ht : v.snapshot = some t) : x.bindings.fastCallEntries = t.entries := by
  rw [h.bindings]
  simp [bindingsOf, Invocation.installed, Invocation.install, hstage, ht]

/-- **Snapshots of fast calls.** In every state that an interleaving of bindings, clearings and
invocations reaches:

1. in every published table, a slot has an entry if and only if it has a lease, and then the entry
   is the native entry of the leased function, whose signature is that of the descriptor;
2. an invocation in progress of a function with fast calls has a snapshot with the same property
   in which every slot is bound; its native code runs on the entries of that snapshot, and no step
   replaces the snapshot;
3. an invocation that finds a slot unbound is rejected and changes nothing;
4. no function calls itself through a chain of fast calls. -/
theorem fast_call_snapshots (events : List InvocationEvent) (s : InvocationSystem)
    (hrun : afterEvents step {} events = some s) :
    (∀ f, (s.fastCalls.targets f).Consistent f ∧
      ∀ (i : Nat) entry lease, (s.fastCalls.targets f).entries[i]? = some entry →
        (s.fastCalls.targets f).leases[i]? = some lease →
          (entry ≠ none ↔ lease ≠ none) ∧
          ∀ target, lease = some target → entry = some target.entry ∧
            ∃ descriptor, f.fastCalls[i]? = some descriptor ∧
              target.parameterTypes = descriptor.parameterTypes ∧
              target.returnType = descriptor.returnType) ∧
    (∀ c, ∀ v ∈ s.calls c, v.code.fastCalls ≠ [] →
      ∃ t, v.snapshot = some t ∧ t.Consistent v.code ∧ none ∉ t.entries ∧
        ∀ rest, s.calls c = v :: rest → v.stage = .native →
          (s.contexts c).bindings.fastCallEntries = t.entries) ∧
    (∀ e s', s.step e = some s' → ∀ c (n : Nat) v v', (s.calls c).reverse[n]? = some v →
      (s'.calls c).reverse[n]? = some v' → v'.code = v.code ∧ v'.snapshot = v.snapshot) ∧
    (∀ c f argCount argsNull s', f.fastCalls ≠ [] → none ∈ (s.fastCalls.targets f).entries →
      s.step (.invoke c f argCount argsNull) = some s' → s' = s) ∧
    (∀ f g, Relation.TransGen s.CallsThrough f g → f.number ≠ g.number) := by
  have h := snapshots_afterEvents hrun
  refine ⟨?_, ?_, ?_, ?_, ?_⟩
  · intro f
    have hconsistent := h.tables.published f
    refine ⟨hconsistent, ?_⟩
    intro i entry lease hentry hlease
    have hlt := (List.getElem?_eq_some_iff.mp hentry).1
    rw [hconsistent.entries_length] at hlt
    have hdescriptor := List.getElem?_eq_getElem hlt
    have hslot := hconsistent.slots i _ entry lease hdescriptor hentry hlease
    cases lease with
    | none =>
        obtain rfl : entry = none := hslot
        simp
    | some target =>
        obtain ⟨hserves, rfl⟩ := hslot
        rw [hserves.entered]
        refine ⟨by simp, ?_⟩
        intro target' htarget
        obtain rfl := Option.some.inj htarget
        exact ⟨rfl, _, hdescriptor, hserves.parameters, hserves.returns⟩
  · intro c v hv hcalls
    have hsnapped := h.calls c v hv
    cases ht : v.snapshot with
    | none => exact absurd (hsnapped.taken.mp ht) hcalls
    | some t =>
        obtain ⟨hconsistent, hbound⟩ := hsnapped.consistent t ht
        refine ⟨t, rfl, hconsistent, hbound, ?_⟩
        intro rest hrest hstage
        have hbindings := bound_afterEvents hrun c
        rw [hrest] at hbindings
        exact hbindings.fastCallEntries hstage ht
  · exact fun e s' hstep c n v v' hv hv' => (step_move hstep).snapshot_kept hv hv'
  · exact fun c f argCount argsNull s' hcalls hunbound hstep =>
      step_invoke_unbound hcalls hunbound hstep
  · exact fun f g hchain => h.number_ne hchain

/-- A function of one word. -/
def sampleCallee : CompiledCode where
  number := 2
  entry := 64
  parameterTypes := [.word]

/-- A function that calls it. -/
def sampleCaller : CompiledCode where
  number := 1
  entry := 32
  requiresContext := true
  fastCalls := [{ parameterTypes := [.word] }]

/-- A call is bound, and the caller runs native code. -/
def sampleCalls : List InvocationEvent :=
  [.fastCall (.bind sampleCaller 0 (some sampleCallee) true), .fastCall (.writeEntry sampleCaller),
    .fastCall (.writeLease sampleCaller), .fastCall (.publish sampleCaller),
    .invoke 0 sampleCaller 0 false, .prepare 0]

/-- A run that binds the slot and enters the caller with a full snapshot. -/
theorem fast_call_snapshots_sample :
    ∃ s v t, afterEvents step {} sampleCalls = some s ∧ s.calls 0 = [v] ∧ v.stage = .native ∧
      v.snapshot = some t ∧ none ∉ t.entries ∧
      (s.contexts 0).bindings.fastCallEntries = t.entries := by
  obtain ⟨s, v, hrun, hcalls, hstage, hcode⟩ : ∃ s v, afterEvents step {} sampleCalls = some s ∧
      s.calls 0 = [v] ∧ v.stage = .native ∧ v.code = sampleCaller :=
    ⟨_, _, rfl, rfl, rfl, rfl⟩
  have hmem : v ∈ s.calls 0 := by
    rw [hcalls]
    exact List.mem_singleton.mpr rfl
  obtain ⟨t, ht, -, hbound, hentries⟩ :=
    (fast_call_snapshots sampleCalls s hrun).2.1 0 v hmem (by rw [hcode]; decide)
  exact ⟨s, v, t, hrun, hcalls, hstage, ht, hbound, hentries [] hcalls hstage⟩

end InvocationSystem

end UniJit.Jit
