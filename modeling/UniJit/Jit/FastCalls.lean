import UniJit.Jit.CompiledCode
import UniJit.Lib.Updates

/-!
# Binding of fast calls

A compiled caller owns an immutable table of fast-call targets: for each slot the native entry of
the target, and a lease that keeps the target alive. `bindFastCall` and `clearFastCall` copy the
current table, change one slot of the copy and publish it. Writers of one caller exclude each other
by a mutex; readers take the published table without it. So the changes of the copy are steps of
their own here, and other threads may run between any two of them.
-/

namespace UniJit.Jit

open UniJit.Ir UniJit.Lib

/-! ## Tables -/

/-- The entries that native code calls and what keeps them alive. -/
structure FastCallTargetTable where
  entries : List (Option NativeEntry)
  leases : List (Option CompiledCode)
  deriving DecidableEq

/-- The table that is published by the compilation. -/
def CompiledCode.initialTargets (f : CompiledCode) : FastCallTargetTable where
  entries := List.replicate f.fastCalls.length none
  leases := List.replicate f.fastCalls.length none

/-- Whether a compiled function may be the target of a call site of `caller`. -/
structure Serves (caller : CompiledCode) (descriptor : FastCallDescriptor) (target : CompiledCode) :
    Prop where
  distinct : target.number ≠ caller.number
  contextFree : target.requiresContext = false
  entered : target.nativeEntry = some target.entry
  profile : targetProfileKey caller.targetProfile = targetProfileKey target.targetProfile
  parameters : target.parameterTypes = descriptor.parameterTypes
  returns : target.returnType = descriptor.returnType

/-- A function with fast calls of its own is never a target. -/
lemma Serves.fastCalls_eq_nil {caller target : CompiledCode} {descriptor : FastCallDescriptor}
    (h : Serves caller descriptor target) : target.fastCalls = [] := by
  by_contra hne
  have hentered := h.entered
  simp [CompiledCode.nativeEntry, hne] at hentered

/-- A slot is unbound, or it has a lease on a fitting target together with its native entry. -/
def SlotConsistent (caller : CompiledCode) (descriptor : FastCallDescriptor)
    (entry : Option NativeEntry) : Option CompiledCode → Prop
  | none => entry = none
  | some target => Serves caller descriptor target ∧ entry = target.nativeEntry

/-- A table whose entries are those of its leases. -/
structure FastCallTargetTable.Consistent (caller : CompiledCode) (t : FastCallTargetTable) :
    Prop where
  entries_length : t.entries.length = caller.fastCalls.length
  leases_length : t.leases.length = caller.fastCalls.length
  slots : ∀ (i : Nat) descriptor entry lease, caller.fastCalls[i]? = some descriptor →
    t.entries[i]? = some entry → t.leases[i]? = some lease →
      SlotConsistent caller descriptor entry lease

/-- The empty table is consistent. -/
lemma initialTargets_consistent (f : CompiledCode) : f.initialTargets.Consistent f := by
  refine ⟨by simp [CompiledCode.initialTargets], by simp [CompiledCode.initialTargets], ?_⟩
  intro i descriptor entry lease _ hentry hlease
  simp only [CompiledCode.initialTargets, List.getElem?_replicate, Option.ite_none_right_eq_some,
    Option.some.injEq] at hentry hlease
  obtain ⟨-, rfl⟩ := hentry
  obtain ⟨-, rfl⟩ := hlease
  rfl

/-- Change the entry and the lease of one slot. -/
lemma FastCallTargetTable.Consistent.set {caller : CompiledCode} {t : FastCallTargetTable}
    (h : t.Consistent caller) {index : Nat} {entry : Option NativeEntry}
    {lease : Option CompiledCode}
    (hslot : ∀ descriptor, caller.fastCalls[index]? = some descriptor →
      SlotConsistent caller descriptor entry lease) :
    FastCallTargetTable.Consistent caller
      { entries := t.entries.set index entry, leases := t.leases.set index lease } := by
  refine ⟨by simpa using h.entries_length, by simpa using h.leases_length, ?_⟩
  intro i descriptor entry' lease' hdescriptor hentry hlease
  by_cases hi : index = i
  · subst hi
    have hlt := (List.getElem?_eq_some_iff.mp hdescriptor).1
    rw [List.getElem?_set_self (h.entries_length ▸ hlt)] at hentry
    rw [List.getElem?_set_self (h.leases_length ▸ hlt)] at hlease
    obtain rfl := Option.some.inj hentry
    obtain rfl := Option.some.inj hlease
    exact hslot descriptor hdescriptor
  · rw [List.getElem?_set_ne hi] at hentry hlease
    exact h.slots i descriptor entry' lease' hdescriptor hentry hlease

/-- Every function a consistent table holds a lease on serves a call site of the caller. -/
lemma FastCallTargetTable.Consistent.leased {caller target : CompiledCode}
    {t : FastCallTargetTable} (h : t.Consistent caller) (htarget : some target ∈ t.leases) :
    ∃ descriptor ∈ caller.fastCalls, Serves caller descriptor target := by
  obtain ⟨i, hi⟩ := List.mem_iff_getElem?.mp htarget
  have hlt : i < t.leases.length := (List.getElem?_eq_some_iff.mp hi).1
  have hdescriptor := List.getElem?_eq_getElem (h.leases_length ▸ hlt)
  have hentry := List.getElem?_eq_getElem (h.entries_length.trans h.leases_length.symm ▸ hlt)
  exact ⟨_, List.mem_of_getElem? hdescriptor, (h.slots i _ _ _ hdescriptor hentry hi).1⟩

/-! ## Binding and clearing -/

/-- The checks of `bind_fast_call` on the arguments. -/
def checkFastCallTarget (caller : CompiledCode) (index : Nat) (target : Option CompiledCode) :
    Except Status CompiledCode :=
  match caller.fastCalls[index]? with
  | none => .error ⟨.invalidArgument, "fast call index is outside the compiled function", 0⟩
  | some descriptor =>
      match target with
      | none =>
          .error ⟨.invalidArgument, "fast call target must be a context-free compiled generation", 0⟩
      | some target => do
          require (¬ (target.number = caller.number ∨ target.requiresContext ∨
              target.nativeEntry = none))
            ⟨.invalidArgument, "fast call target must be a context-free compiled generation", 0⟩
          require (targetProfileKey caller.targetProfile = targetProfileKey target.targetProfile)
            ⟨.invalidArgument, "fast call target profile does not match the caller", 0⟩
          require (¬ (descriptor.parameterTypes.length ≠ target.parameterCount ∨
              descriptor.returnType ≠ target.returnType))
            ⟨.invalidArgument, "fast call target signature does not match the call site", 0⟩
          descriptor.parameterTypes.zipIdx.forM fun (type, parameter) =>
            require (type = target.parameterType parameter)
              ⟨.invalidArgument,
                "fast call target parameter type does not match the call site", parameter⟩
          pure target

/-- A native entry is the function's entry. -/
lemma nativeEntry_eq_entry {f : CompiledCode} (h : f.nativeEntry ≠ none) :
    f.nativeEntry = some f.entry := by
  unfold CompiledCode.nativeEntry at h ⊢
  split_ifs at h ⊢ with hc
  · exact absurd rfl h
  · rfl

/-- What `bind_fast_call` accepts serves the call site. -/
lemma checkFastCallTarget_eq_ok {caller target : CompiledCode} {index : Nat}
    {given : Option CompiledCode} (h : checkFastCallTarget caller index given = .ok target) :
    ∃ descriptor, caller.fastCalls[index]? = some descriptor ∧ Serves caller descriptor target := by
  unfold checkFastCallTarget at h
  cases hdescriptor : caller.fastCalls[index]? with
  | none => simp [hdescriptor] at h
  | some descriptor =>
      simp only [hdescriptor] at h
      cases given with
      | none => simp at h
      | some given =>
          simp only [bind_eq_ok, require_eq_ok, forM_eq_ok, pure_eq_ok, not_or, not_not] at h
          obtain ⟨_, ⟨hnumber, hcontext, hentry⟩, _, hprofile, _, ⟨hlength, hreturns⟩, _, htypes,
            rfl⟩ := h
          refine ⟨descriptor, rfl, hnumber, by simpa using hcontext, nativeEntry_eq_entry hentry,
            hprofile, ?_, hreturns.symm⟩
          apply List.ext_getElem hlength.symm
          intro i hi hi'
          have htype := htypes (descriptor.parameterTypes[i], i)
            (List.mem_zipIdx_iff_getElem?.mpr (List.getElem?_eq_getElem hi'))
          simp only [CompiledCode.parameterType] at htype
          rw [htype, List.getD_eq_getElem?_getD, List.getElem?_eq_getElem hi, Option.getD_some]

/-- How far a writer has changed its copy. -/
inductive WriterStage
  | copied | entered | leased
  deriving DecidableEq, Repr

/-- The writer that holds the mutex of a caller. A target of `none` clears the slot. -/
structure FastCallWriter where
  index : Nat
  target : Option CompiledCode
  replacement : FastCallTargetTable
  stage : WriterStage := .copied

/-- The published tables and the bindings under way. -/
structure FastCallTables where
  targets : CompiledCode → FastCallTargetTable := CompiledCode.initialTargets
  /-- The holder of the mutex of each caller. -/
  writer : CompiledCode → Option FastCallWriter := fun _ => none

/-- One atomic section of a binding. -/
inductive FastCallEvent
  /-- The checks of `bind_fast_call`, and the copy under the mutex, which may run out of memory. -/
  | bind (caller : CompiledCode) (index : Nat) (target : Option CompiledCode) (allocated : Bool)
  | clear (caller : CompiledCode) (index : Nat) (allocated : Bool)
  | writeEntry (caller : CompiledCode)
  | writeLease (caller : CompiledCode)
  /-- The release of the copy to the readers, and of the mutex. -/
  | publish (caller : CompiledCode)

namespace FastCallTables

/-- Sets who holds a caller's mutex. -/
def setWriter (s : FastCallTables) (caller : CompiledCode) (w : Option FastCallWriter) :
    FastCallTables :=
  { s with writer := Function.update s.writer caller w }

/-- Take the mutex and copy the table; without memory for the copy nothing changes. -/
def lock (s : FastCallTables) (caller : CompiledCode) (index : Nat) (target : Option CompiledCode)
    (allocated : Bool) : Option FastCallTables :=
  match s.writer caller with
  | some _ => none
  | none =>
      if ¬ allocated ∨ (s.targets caller).entries.length ≤ index then some s
      else some (s.setWriter caller
        (some { index := index, target := target, replacement := s.targets caller }))

/-- What an atomic section does. -/
def step (s : FastCallTables) : FastCallEvent → Option FastCallTables
  | .bind caller index target allocated =>
      match checkFastCallTarget caller index target with
      | .error _ => some s
      | .ok target => s.lock caller index (some target) allocated
  | .clear caller index allocated =>
      if caller.fastCalls.length ≤ index then some s else s.lock caller index none allocated
  | .writeEntry caller => do
      let w ← s.writer caller
      if w.stage = .copied then
        let entry := w.target.bind CompiledCode.nativeEntry
        some (s.setWriter caller (some { w with
          replacement := { w.replacement with
            entries := w.replacement.entries.set w.index entry }
          stage := .entered }))
      else none
  | .writeLease caller => do
      let w ← s.writer caller
      if w.stage = .entered then
        some (s.setWriter caller (some { w with
          replacement := { w.replacement with
            leases := w.replacement.leases.set w.index w.target }
          stage := .leased }))
      else none
  | .publish caller => do
      let w ← s.writer caller
      if w.stage = .leased then
        some { targets := Function.update s.targets caller w.replacement
               writer := Function.update s.writer caller none }
      else none

/-- A copy is consistent when both changes of it are taken as made. -/
structure WriterSound (caller : CompiledCode) (w : FastCallWriter) : Prop where
  fits : ∀ descriptor, caller.fastCalls[w.index]? = some descriptor →
    SlotConsistent caller descriptor (w.target.bind CompiledCode.nativeEntry) w.target
  copied : w.stage = .copied → w.replacement.Consistent caller
  entered : w.stage = .entered → FastCallTargetTable.Consistent caller
    { w.replacement with leases := w.replacement.leases.set w.index w.target }
  leased : w.stage = .leased → w.replacement.Consistent caller

/-- Every published table is consistent, and every writer is about to publish one that is. -/
structure Sound (s : FastCallTables) : Prop where
  published : ∀ caller, (s.targets caller).Consistent caller
  writers : ∀ caller w, s.writer caller = some w → WriterSound caller w

lemma sound_start : Sound {} :=
  ⟨initialTargets_consistent, by simp⟩

/-- A sound writer keeps the tables sound. -/
lemma Sound.setWriter {s : FastCallTables} (h : s.Sound) {caller : CompiledCode}
    {w : FastCallWriter} (hw : WriterSound caller w) : (s.setWriter caller (some w)).Sound := by
  refine ⟨h.published, ?_⟩
  intro caller' w' hw'
  by_cases hcaller : caller' = caller
  · subst hcaller
    obtain rfl : w = w' := by simpa [FastCallTables.setWriter] using hw'
    exact hw
  · apply h.writers caller'
    simpa [FastCallTables.setWriter, hcaller] using hw'

/-- A copy made under the mutex keeps the tables sound. -/
lemma Sound.lock {s s' : FastCallTables} (h : s.Sound) {caller : CompiledCode} {index : Nat}
    {target : Option CompiledCode} {allocated : Bool}
    (hfits : ∀ descriptor, caller.fastCalls[index]? = some descriptor →
      SlotConsistent caller descriptor (target.bind CompiledCode.nativeEntry) target)
    (hlock : s.lock caller index target allocated = some s') : s'.Sound := by
  unfold FastCallTables.lock at hlock
  split at hlock
  · simp at hlock
  · split_ifs at hlock
    · obtain rfl := Option.some.inj hlock
      exact h
    · obtain rfl := Option.some.inj hlock
      exact h.setWriter ⟨hfits, fun _ => h.published caller, by simp, by simp⟩

/-- **Step.** No step publishes a table that mixes a target with the entry of another. -/
lemma Sound.step {s s' : FastCallTables} (h : s.Sound) {e : FastCallEvent}
    (hstep : s.step e = some s') : s'.Sound := by
  cases e with
  | bind caller index target allocated =>
      simp only [FastCallTables.step] at hstep
      cases hcheck : checkFastCallTarget caller index target with
      | error status =>
          simp only [hcheck] at hstep
          obtain rfl := Option.some.inj hstep
          exact h
      | ok target =>
          simp only [hcheck] at hstep
          obtain ⟨descriptor, hdescriptor, hserves⟩ := checkFastCallTarget_eq_ok hcheck
          refine h.lock ?_ hstep
          intro descriptor' hdescriptor'
          obtain rfl : descriptor = descriptor' :=
            Option.some.inj (hdescriptor.symm.trans hdescriptor')
          exact ⟨hserves, rfl⟩
  | clear caller index allocated =>
      simp only [FastCallTables.step] at hstep
      split_ifs at hstep
      · obtain rfl := Option.some.inj hstep
        exact h
      · refine h.lock ?_ hstep
        intro _ _
        rfl
  | writeEntry caller =>
      obtain ⟨w, hw, hchange⟩ := Option.bind_eq_some_iff.mp hstep
      simp only [Option.ite_none_right_eq_some, Option.some.injEq] at hchange
      obtain ⟨hstage, rfl⟩ := hchange
      have hsound := h.writers caller w hw
      apply h.setWriter
      refine ⟨hsound.fits, by simp, ?_, by simp⟩
      intro _
      exact (hsound.copied hstage).set hsound.fits
  | writeLease caller =>
      obtain ⟨w, hw, hchange⟩ := Option.bind_eq_some_iff.mp hstep
      simp only [Option.ite_none_right_eq_some, Option.some.injEq] at hchange
      obtain ⟨hstage, rfl⟩ := hchange
      have hsound := h.writers caller w hw
      apply h.setWriter
      exact ⟨hsound.fits, by simp, by simp, fun _ => hsound.entered hstage⟩
  | publish caller =>
      obtain ⟨w, hw, hchange⟩ := Option.bind_eq_some_iff.mp hstep
      simp only [Option.ite_none_right_eq_some, Option.some.injEq] at hchange
      obtain ⟨hstage, rfl⟩ := hchange
      refine ⟨?_, ?_⟩
      · intro caller'
        by_cases hcaller : caller' = caller
        · subst hcaller
          simpa using (h.writers caller' w hw).leased hstage
        · simpa [hcaller] using h.published caller'
      · intro caller' w' hw'
        by_cases hcaller : caller' = caller
        · subst hcaller
          simp at hw'
        · exact h.writers caller' w' (by simpa [hcaller] using hw')

end FastCallTables

end UniJit.Jit
