import UniJit.Lib.Progressions
import UniJit.Lua.AcceptedCode

/-!
# Runs of accepted code

What the machine does in code that the translator accepts. A row of instructions is passed unless
one of them divides by zero (`Straight.passes`); a body is passed, left, or stopped by a division;
and so a loop that is entered with a count runs at most that many further iterations, exactly that
many if nothing in its body leaves it (`stopsAt_of_iterates`).

`Iterates` counts the iterations that a run begins.
-/

namespace UniJit.Lua

open UniJit.Ir UniJit.Lib

/-- An action that leaves the loop. -/
def GuardedBodyKind.leaves : GuardedBodyKind → Bool
  | .break | .return => true
  | _ => false

namespace Vm

/-! ## Counting iterations -/

section counting

variable (p : Proto)

/-- A step begins an iteration of a numeric `for`. -/
def begins (s s' : State) : Bool :=
  match (p.fetch s.pc).opcode with
  | .forPrep => s'.pc == s.pc + 1
  | .forLoop => s.registers (p.fetch s.pc).A != some 0
  | _ => false

/-- At most `fuel` steps of a call, with the number of iterations that they begin. -/
def iterate : Nat → State → Option (Outcome × Nat)
  | 0, _ => none
  | fuel + 1, s =>
      match step p s with
      | some (.next s') => (iterate fuel s').map fun r => (r.1, r.2 + (begins p s s').toNat)
      | some (.done o) => some (o, 0)
      | none => none

/-- A call ends with an outcome and has begun a number of iterations. -/
def Iterates (s : State) (o : Outcome) (n : Nat) : Prop := ∃ fuel, iterate p fuel s = some (o, n)

/-- Steps from a state to another one, with the number of iterations that they begin. -/
inductive Leads : State → Nat → State → Prop
  | refl {s : State} : Leads s 0 s
  | next {s s' s'' : State} {n : Nat} (h : step p s = some (.next s')) (hrest : Leads s' n s'') :
      Leads s (n + (begins p s s').toNat) s''

variable {p} {s s' s'' : State} {o : Outcome} {n m : Nat}

/-- A run that is over begins no iteration. -/
lemma iterates_done {o' : Outcome} (h : step p s = some (.done o')) :
    Iterates p s o n ↔ o = o' ∧ n = 0 := by
  constructor
  · rintro ⟨fuel, hrun⟩
    rcases fuel with - | fuel
    · cases hrun
    · rw [iterate, h] at hrun
      cases hrun
      exact ⟨rfl, rfl⟩
  · rintro ⟨rfl, rfl⟩
    exact ⟨1, by rw [iterate, h]⟩

/-- One step counts the iteration that it begins. -/
lemma iterates_next (h : step p s = some (.next s')) :
    Iterates p s o n ↔ ∃ m, Iterates p s' o m ∧ n = m + (begins p s s').toNat := by
  constructor
  · rintro ⟨fuel, hrun⟩
    rcases fuel with - | fuel
    · cases hrun
    · rw [iterate, h] at hrun
      obtain ⟨⟨o', m⟩, hrest, heq⟩ := Option.map_eq_some_iff.mp hrun
      cases heq
      exact ⟨m, ⟨fuel, hrest⟩, rfl⟩
  · rintro ⟨m, ⟨fuel, hrest⟩, rfl⟩
    exact ⟨fuel + 1, by rw [iterate, h]; simp only [hrest, Option.map_some]⟩

/-- A run ends in one way only. -/
lemma Iterates.unique {o' : Outcome} {n' : Nat} (h : Iterates p s o n)
    (h' : Iterates p s o' n') : o = o' ∧ n = n' := by
  obtain ⟨fuel, hrun⟩ := h
  induction fuel generalizing s n n' with
  | zero => cases hrun
  | succ fuel ih =>
      rcases hstep : step p s with - | (next | outcome)
      · rw [iterate, hstep] at hrun
        cases hrun
      · rw [iterate, hstep] at hrun
        obtain ⟨⟨o₁, m⟩, hrest, heq⟩ := Option.map_eq_some_iff.mp hrun
        cases heq
        obtain ⟨m', hrest', rfl⟩ := (iterates_next hstep).mp h'
        obtain ⟨rfl, rfl⟩ := ih hrest' hrest
        exact ⟨rfl, rfl⟩
      · rw [iterate, hstep] at hrun
        cases hrun
        obtain ⟨rfl, rfl⟩ := (iterates_done hstep).mp h'
        exact ⟨rfl, rfl⟩

/-- A run that ends has begun some number of iterations. -/
lemma ends_iff_iterates : Ends p s o ↔ ∃ n, Iterates p s o n := by
  constructor
  · rintro ⟨fuel, hrun⟩
    induction fuel generalizing s with
    | zero => cases hrun
    | succ fuel ih =>
        rcases hstep : step p s with - | (next | outcome)
        all_goals rw [run, hstep] at hrun
        · cases hrun
        · obtain ⟨n, hrest⟩ := ih hrun
          exact ⟨_, (iterates_next hstep).mpr ⟨n, hrest, rfl⟩⟩
        · cases hrun
          exact ⟨0, (iterates_done hstep).mpr ⟨rfl, rfl⟩⟩
  · rintro ⟨n, fuel, hrun⟩
    induction fuel generalizing s n with
    | zero => cases hrun
    | succ fuel ih =>
        rcases hstep : step p s with - | (next | outcome)
        all_goals rw [iterate, hstep] at hrun
        · cases hrun
        · obtain ⟨⟨o₁, m⟩, hrest, heq⟩ := Option.map_eq_some_iff.mp hrun
          cases heq
          exact (ih m hrest).next hstep
        · cases hrun
          exact .done hstep

/-- A step that begins no iteration. -/
lemma Leads.one (h : step p s = some (.next s')) (hbegins : begins p s s' = false) :
    Leads p s 0 s' := by
  have hstep := Leads.next h .refl
  rwa [hbegins] at hstep

/-- Runs in a row add up their iterations. -/
lemma Leads.trans (h : Leads p s n s') (h' : Leads p s' m s'') : Leads p s (m + n) s'' := by
  induction h with
  | refl => exact h'
  | next hstep _ ih =>
      rw [← Nat.add_assoc]
      exact .next hstep (ih h')

/-- What follows a lead decides how a run ends. -/
lemma Leads.iterates_iff (h : Leads p s n s') :
    Iterates p s o m ↔ ∃ k, Iterates p s' o k ∧ m = k + n := by
  induction h generalizing m with
  | refl => simp
  | @next s s₁ s₂ n hstep _ ih =>
      rw [iterates_next hstep]
      constructor
      · rintro ⟨m', hrest, rfl⟩
        obtain ⟨k, hk, rfl⟩ := ih.mp hrest
        exact ⟨k, hk, by rw [Nat.add_assoc]⟩
      · rintro ⟨k, hk, rfl⟩
        exact ⟨k + n, ih.mpr ⟨k, hk, rfl⟩, by rw [Nat.add_assoc]⟩

/-- A run without iterations does not change the count. -/
lemma Leads.iterates (h : Leads p s 0 s') : Iterates p s o m ↔ Iterates p s' o m := by
  rw [h.iterates_iff]
  simp

end counting

/-! ## Accepted instructions -/

/-- The registers that have a value in the translation hold an integer. -/
def Defined (values : List Value) (registers : Registers) : Prop :=
  ∀ r, (values.getD r Value.invalid).valid → (registers r).isSome

/-- A written register is defined. -/
lemma Defined.write {values : List Value} {registers : Registers} (h : Defined values registers)
    (r : Nat) (v : Value) (w : Word) :
    Defined (values.set r v) (Function.update registers r (some w)) := by
  intro r' hvalid
  by_cases hr : r' = r
  · subst hr
    simp
  · rw [Function.update_of_ne hr]
    apply h
    simpa [List.getD, List.getElem?_set, Ne.symm hr] using hvalid

section accepted

variable {p : Proto} {s : State} {values : List Value} {stop : Nat}

/-- The operands of accepted arithmetic are defined. -/
lemma operands_of_accepts (h : Accepts p values s.pc stop) (hdefined : Defined values s.registers)
    (hwidth : (p.fetch s.pc).width = 2) : ∃ x y, operands p s (p.fetch s.pc) = some (x, y) := by
  have hread : ∀ r ∈ (p.fetch s.pc).reads, ∃ x, s.registers r = some x := fun r hr =>
    Option.isSome_iff_exists.mp (hdefined r (h.reads r hr).2)
  have hwrites := h.writes
  have hconstant := h.constant
  unfold operands
  rcases hopcode : (p.fetch s.pc).opcode
  all_goals simp only [Instruction.width, hopcode, OfNat.one_ne_ofNat] at hwidth
  all_goals simp only [OpCode.writesDestination, hopcode, Bool.false_eq_true] at hwrites
  all_goals
    simp only [Instruction.reads, Instruction.HasConstant, hopcode, List.mem_cons,
      List.not_mem_nil, or_false, forall_eq, forall_eq_or_imp, Option.isSome_iff_exists]
      at hread hconstant
  case addI | shlI | shrI =>
    obtain ⟨x, hx⟩ := hread
    simp [hx]
  case addK | subK | mulK | modK | idivK | bandK | borK | bxorK =>
    obtain ⟨x, hx⟩ := hread
    obtain ⟨y, hy⟩ := hconstant
    simp [hx, hy]
  case add | sub | mul | mod | idiv | band | bor | bxor | shl | shr =>
    obtain ⟨⟨x, hx⟩, y, hy⟩ := hread
    simp [hx, hy]

/-- An accepted instruction writes its register or divides by zero. -/
lemma step_of_accepts (h : Accepts p values s.pc stop) (hdefined : Defined values s.registers) :
    (∃ w, step p s = some (write s (p.fetch s.pc).A w (s.pc + (p.fetch s.pc).width))) ∨
      step p s = some (.done (.divisionByZero s.pc)) := by
  have hread : ∀ r ∈ (p.fetch s.pc).reads, ∃ x, s.registers r = some x := fun r hr =>
    Option.isSome_iff_exists.mp (hdefined r (h.reads r hr).2)
  have hwrites := h.writes
  have hconstant := h.constant
  have hoperands := operands_of_accepts h hdefined
  unfold step
  rcases hopcode : (p.fetch s.pc).opcode
  all_goals simp only [OpCode.writesDestination, hopcode, Bool.false_eq_true] at hwrites
  all_goals
    simp only [Instruction.reads, Instruction.HasConstant, Instruction.width, hopcode,
      List.mem_cons, List.not_mem_nil, or_false, forall_eq, forall_eq_or_imp,
      Option.isSome_iff_exists] at hread hconstant hoperands ⊢
  case loadI => exact .inl ⟨_, rfl⟩
  case loadK =>
    obtain ⟨x, hx⟩ := hconstant
    exact .inl ⟨x, by rw [hx]; rfl⟩
  case move | unm | bnot =>
    obtain ⟨x, hx⟩ := hread
    exact .inl ⟨_, by rw [hx]; rfl⟩
  all_goals
    obtain ⟨x, y, hxy⟩ := hoperands trivial
    rw [arithmetic, hxy]
    by_cases hzero : (p.fetch s.pc).opcode.divides = true ∧ y = 0
    · exact .inr (if_pos hzero)
    · exact .inl ⟨_, if_neg hzero⟩

/-- An instruction that writes begins no iteration. -/
lemma begins_of_writes {s' : State} (h : (p.fetch s.pc).opcode.writesDestination = true) :
    begins p s s' = false := by
  unfold begins
  split
  case h_1 heq => rw [heq] at h; cases h
  case h_2 heq => rw [heq] at h; cases h
  case h_3 => rfl

/-- A return ends with its register's word. -/
lemma step_of_return {r : Nat} (hreturn : (p.fetch s.pc).opcode = .ret1 ∨
      (p.fetch s.pc).opcode = .ret ∧ (p.fetch s.pc).B = 2 ∧ (p.fetch s.pc).k = false)
    (hr : (p.fetch s.pc).A = r) (hdefined : (s.registers r).isSome) :
    ∃ v, step p s = some (.done (.returned v)) := by
  obtain ⟨v, hv⟩ := Option.isSome_iff_exists.mp hdefined
  refine ⟨v, ?_⟩
  rcases hreturn with hopcode | ⟨hopcode, hcount⟩
  · simp only [step, hopcode, hr, hv]
    rfl
  · simp only [step, hopcode, if_pos hcount, hr, hv]
    rfl

end accepted

/-! ## Straight rows -/

/-- An instruction of a straight row, as it is run. -/
def WritesAt (p : Proto) (protectedBase : Option Nat) (stop : Nat) (s : State) (w : Word) : Prop :=
  (∃ values, Accepts p values s.pc stop) ∧
    (∀ base ∈ protectedBase, (p.fetch s.pc).A < base ∨ base + 2 < (p.fetch s.pc).A) ∧
    step p s = some (write s (p.fetch s.pc).A w (s.pc + (p.fetch s.pc).width))

/-- A straight row is run to its end or to its return, unless it divides by zero. What each of its
instructions preserves holds at the end. -/
lemma run_straight {p : Proto} {protectedBase : Option Nat} {start stop : Nat}
    {values values' : List Value} {returned : Bool} {I : Nat → Registers → Prop}
    (hI : ∀ s w, start ≤ s.pc → WritesAt p protectedBase stop s w → I s.pc s.registers →
      I (s.pc + (p.fetch s.pc).width) (Function.update s.registers (p.fetch s.pc).A (some w)))
    (h : Straight p protectedBase stop start values values' returned) {s : State}
    (hpc : s.pc = start) (hdefined : Defined values s.registers) (hs : I start s.registers) :
    (returned = false ∧ ∃ s', Leads p s 0 s' ∧ s'.pc = stop ∧ Defined values' s'.registers ∧
        I stop s'.registers) ∨
      (returned = true ∧ ∃ v, Iterates p s (.returned v) 0) ∨
      ∃ q, Iterates p s (.divisionByZero q) 0 := by
  induction h generalizing s with
  | done => exact .inl ⟨rfl, s, .refl, hpc, hdefined, hs⟩
  | «return» hlt hreturn hvalue =>
      subst hpc
      obtain ⟨v, hstep⟩ := step_of_return hreturn rfl (hdefined _ hvalue.2)
      exact .inr (.inl ⟨rfl, v, (iterates_done hstep).mpr ⟨rfl, rfl⟩⟩)
  | write v haccepts hprotected hrest ih =>
      subst hpc
      rcases step_of_accepts haccepts hdefined with ⟨w, hstep⟩ | hstep
      · have hlead := Leads.one hstep (begins_of_writes haccepts.writes)
        have hnext := ih (fun s' w' hpc' => hI s' w' (by omega))
          (s := ⟨_, Function.update s.registers (p.fetch s.pc).A (some w)⟩) rfl
          (hdefined.write _ v w) (hI s w le_rfl ⟨⟨_, haccepts⟩, hprotected, hstep⟩ hs)
        rcases hnext with ⟨hreturned, s', hleads, hend⟩ | ⟨hreturned, u, hruns⟩ | ⟨q, hruns⟩
        · exact .inl ⟨hreturned, s', hlead.trans hleads, hend⟩
        · exact .inr (.inl ⟨hreturned, u, hlead.iterates.mpr hruns⟩)
        · exact .inr (.inr ⟨q, hlead.iterates.mpr hruns⟩)
      · exact .inr (.inr ⟨_, (iterates_done hstep).mpr ⟨rfl, rfl⟩⟩)

/-! ## Bodies -/

/-- No instruction of a range writes a register. -/
def Unwritten (p : Proto) (start stop r : Nat) : Prop :=
  ∀ q, start ≤ q → q < stop → (p.fetch q).opcode.writesDestination = true → (p.fetch q).A ≠ r

/-- What the body of a loop keeps. -/
structure KeepsBody (p : Proto) (l : LoopSite) (before after : Registers) : Prop where
  defined : ∀ r, (before r).isSome → (after r).isSome
  state : ∀ r, l.stateBase ≤ r → r ≤ l.stateBase + 2 → after r = before r
  unwritten : ∀ r, Unwritten p (l.preparationPc + 1) l.loopPc r → after r = before r

lemma KeepsBody.refl (p : Proto) (l : LoopSite) (registers : Registers) :
    KeepsBody p l registers registers := ⟨fun _ h => h, fun _ _ _ => rfl, fun _ _ => rfl⟩

/-- Keeping is transitive. -/
lemma KeepsBody.trans {p : Proto} {l : LoopSite} {first second third : Registers}
    (h : KeepsBody p l first second) (h' : KeepsBody p l second third) :
    KeepsBody p l first third where
  defined := fun r hr => h'.defined r (h.defined r hr)
  state := fun r hlow hhigh => (h'.state r hlow hhigh).trans (h.state r hlow hhigh)
  unwritten := fun r hr => (h'.unwritten r hr).trans (h.unwritten r hr)

/-- The carried registers hold integers. -/
def CarriedDefined (l : LoopSite) (registers : Registers) : Prop :=
  ∀ r ∈ l.carried, (registers r).isSome

/-- Carried registers stay defined. -/
lemma CarriedDefined.keeps {p : Proto} {l : LoopSite} {before after : Registers}
    (h : CarriedDefined l before) (hkeeps : KeepsBody p l before after) : CarriedDefined l after :=
  fun r hr => hkeeps.defined r (h r hr)

/-- The registers with values in a block are defined. -/
lemma defined_of_carries {l : LoopSite} {values : List Value} {registers : Registers}
    (h : Carries l.carried values) (hcarried : CarriedDefined l registers) :
    Defined values registers := fun r hr => hcarried r (h r hr)

/-- A part of the body is passed, unless it divides by zero. -/
def Passes (p : Proto) (l : LoopSite) (s : State) (target : Nat) : Prop :=
  (∃ s', Leads p s 0 s' ∧ s'.pc = target ∧ KeepsBody p l s.registers s'.registers) ∨
    ∃ q, Iterates p s (.divisionByZero q) 0

/-- A run ends without another iteration, and not for a step of zero. -/
def Finishes (p : Proto) (s : State) : Prop := ∃ o, o ≠ .stepIsZero ∧ Iterates p s o 0

section bodies

variable {p : Proto} {l : LoopSite} {s s' : State}

/-- A run that leads to a finish finishes. -/
lemma Finishes.of_leads (h : Leads p s 0 s') (hs' : Finishes p s') : Finishes p s := by
  obtain ⟨o, ho, hruns⟩ := hs'
  exact ⟨o, ho, h.iterates.mpr hruns⟩

lemma Finishes.of_division {q : Nat} (h : Iterates p s (.divisionByZero q) 0) : Finishes p s :=
  ⟨_, by simp, h⟩

/-- A run that leads to a pass passes. -/
lemma Passes.of_leads {target : Nat} (h : Leads p s 0 s')
    (hkeeps : KeepsBody p l s.registers s'.registers) (hs' : Passes p l s' target) :
    Passes p l s target := by
  rcases hs' with ⟨s'', hleads, hpc, hkeeps'⟩ | ⟨q, hruns⟩
  · exact .inl ⟨s'', h.trans hleads, hpc, hkeeps.trans hkeeps'⟩
  · exact .inr ⟨q, h.iterates.mpr hruns⟩

/-- Passing on from where it has passed to. -/
lemma Passes.trans {middle target : Nat} (h : Passes p l s middle)
    (hnext : ∀ s', s'.pc = middle → KeepsBody p l s.registers s'.registers →
      Passes p l s' target) : Passes p l s target := by
  rcases h with ⟨s', hleads, hpc, hkeeps⟩ | ⟨q, hruns⟩
  · exact .of_leads hleads hkeeps (hnext s' hpc hkeeps)
  · exact .inr ⟨q, hruns⟩

/-- An instruction of the body keeps what the body keeps. -/
lemma KeepsBody.write {start stop : Nat} {w : Word} {before : Registers}
    (hstart : l.preparationPc + 1 ≤ start) (hstop : stop ≤ l.loopPc) (hpc : start ≤ s.pc)
    (h : WritesAt p (some l.stateBase) stop s w) (hs : KeepsBody p l before s.registers) :
    KeepsBody p l before (Function.update s.registers (p.fetch s.pc).A (some w)) := by
  obtain ⟨⟨values, haccepts⟩, hprotected, -⟩ := h
  have hfree := hprotected l.stateBase rfl
  have hwidth := (p.fetch s.pc).width_pos
  have hfits := haccepts.fits
  refine hs.trans ⟨fun r hr => ?_, fun r hlow hhigh => ?_, fun r hr => ?_⟩
  · by_cases hA : r = (p.fetch s.pc).A
    · rw [hA, Function.update_self]
      rfl
    · rwa [Function.update_of_ne hA]
  · exact Function.update_of_ne (by omega) _ _
  · exact Function.update_of_ne (hr s.pc (by omega) (by omega) haccepts.writes).symm _ _

/-- A straight part of the body is run to its end or to its return. -/
lemma run_part {start stop : Nat} {returned : Bool}
    (h : StraightFrom p l.carried (some l.stateBase) start stop returned)
    (hstart : l.preparationPc + 1 ≤ start) (hstop : stop ≤ l.loopPc) (hpc : s.pc = start)
    (hcarried : CarriedDefined l s.registers) :
    (returned = false ∧ Passes p l s stop) ∨ (returned = true ∧ Finishes p s) := by
  obtain ⟨values, values', hcarries, hstraight⟩ := h
  have hrun := run_straight (I := fun _ registers => KeepsBody p l s.registers registers)
    (fun s' w hpc' hwrites hkeeps => KeepsBody.write hstart hstop hpc' hwrites hkeeps) hstraight hpc
    (defined_of_carries hcarries hcarried) (.refl p l s.registers)
  rcases hrun with ⟨hreturned, s', hleads, hend, -, hkeeps⟩ | ⟨hreturned, v, hruns⟩ | ⟨q, hruns⟩
  · exact .inl ⟨hreturned, .inl ⟨s', hleads, hend, hkeeps⟩⟩
  · exact .inr ⟨hreturned, _, by simp, hruns⟩
  · rcases returned with - | -
    · exact .inl ⟨rfl, .inr ⟨q, hruns⟩⟩
    · exact .inr ⟨rfl, .of_division hruns⟩

/-- A straight-line part of the body passes to its end. -/
lemma passes_part {start stop : Nat}
    (h : StraightFrom p l.carried (some l.stateBase) start stop false)
    (hstart : l.preparationPc + 1 ≤ start) (hstop : stop ≤ l.loopPc) (hpc : s.pc = start)
    (hcarried : CarriedDefined l s.registers) : Passes p l s stop := by
  rcases run_part h hstart hstop hpc hcarried with ⟨-, hpasses⟩ | ⟨hreturned, -⟩
  · exact hpasses
  · cases hreturned

/-- The code behind the loop ends the call. -/
lemma finishes_exit (h : StraightFrom p l.carried none (l.loopPc + 1) p.sizecode true)
    (hpc : s.pc = l.loopPc + 1) (hcarried : CarriedDefined l s.registers) : Finishes p s := by
  obtain ⟨values, values', hcarries, hstraight⟩ := h
  have hrun := run_straight (I := fun _ _ => True) (fun _ _ _ _ _ => trivial) hstraight hpc
    (defined_of_carries hcarries hcarried) trivial
  rcases hrun with ⟨hreturned, -⟩ | ⟨-, v, hruns⟩ | ⟨q, hruns⟩
  · cases hreturned
  · exact ⟨_, by simp, hruns⟩
  · exact .of_division hruns

/-! ### Bodies with a condition -/

/-- A jump goes to its target and begins no iteration. -/
lemma step_of_jump {target : Nat} (hopcode : (p.fetch s.pc).opcode = .jmp)
    (htarget : jumpAt p s.pc = target) :
    step p s = some (.next { s with pc := target }) ∧ begins p s { s with pc := target } = false := by
  have hjump : jumpTarget s.pc (p.fetch s.pc).sJ = target := by
    rw [jumpTarget, ← jumpAt, htarget, Int.toNat_natCast]
  constructor
  · simp only [step, hopcode, hjump]
    rfl
  · simp only [begins, hopcode]

/-- A jump leads to its target. -/
lemma leads_of_jump {target : Nat} (hopcode : (p.fetch s.pc).opcode = .jmp)
    (htarget : jumpAt p s.pc = target) : Leads p s 0 { s with pc := target } :=
  .one (step_of_jump hopcode htarget).1 (step_of_jump hopcode htarget).2

/-- The condition at `pc` leads to its action. -/
abbrev TakesAction (p : Proto) (pc : Nat) (x y : Word) : Prop :=
  (p.fetch pc).opcode.compares x y ≠ (p.fetch pc).k

/-- The operands of an accepted condition are known, and it is decided by them. -/
lemma leads_of_comparison {values : List Value} {target : Nat}
    (hcomparison : isIntegerComparison (p.fetch s.pc).opcode = true)
    (haccepts : ComparisonAccepted p s.pc values) (hdefined : Defined values s.registers)
    (htarget : jumpAt p (s.pc + 1) = target) :
    ∃ x y, operands p s (p.fetch s.pc) = some (x, y) ∧
      Leads p s 0 { s with pc := if TakesAction p s.pc x y then s.pc + 2 else target } := by
  obtain ⟨⟨-, hlhs⟩, hrhs⟩ := haccepts
  obtain ⟨x, hx⟩ := Option.isSome_iff_exists.mp (hdefined _ hlhs)
  have hjump : jumpTarget (s.pc + 1) (p.fetch (s.pc + 1)).sJ = target := by
    rw [jumpTarget, ← jumpAt, htarget, Int.toNat_natCast]
  have hoperands : ∃ x y, operands p s (p.fetch s.pc) = some (x, y) := by
    unfold operands
    rcases hopcode : (p.fetch s.pc).opcode
    all_goals simp only [hopcode, isIntegerComparison, Bool.false_eq_true] at hcomparison
    all_goals simp only [hopcode] at hrhs
    case eq | lt | le =>
      obtain ⟨y, hy⟩ := Option.isSome_iff_exists.mp (hdefined _ hrhs.2)
      exact ⟨x, y, by simp [hx, hy]⟩
    case eqK =>
      obtain ⟨y, hy⟩ := Option.isSome_iff_exists.mp hrhs
      exact ⟨x, y, by simp [hx, hy]⟩
    all_goals exact ⟨x, _, by rw [hx]; rfl⟩
  obtain ⟨x, y, hxy⟩ := hoperands
  refine ⟨x, y, hxy, ?_⟩
  have hstep : step p s = comparison p s (p.fetch s.pc) := by
    unfold step
    rcases hopcode : (p.fetch s.pc).opcode
    all_goals simp only [hopcode, isIntegerComparison, Bool.false_eq_true] at hcomparison
    all_goals simp only [hopcode]
  have hbegins : ∀ s', begins p s s' = false := by
    intro s'
    unfold begins
    rcases hopcode : (p.fetch s.pc).opcode
    all_goals simp only [hopcode, isIntegerComparison, Bool.false_eq_true] at hcomparison
    all_goals simp only
  apply Leads.one _ (hbegins _)
  rw [hstep, comparison, hxy, hjump]
  split_ifs with htaken
  · exact if_pos htaken
  · exact if_neg htaken

/-- The rest of a guarded body passes to the loop instruction. -/
lemma passes_continuation {plan : GuardedBodyPlan} (haccepted : GuardedAccepted p l plan)
    (hplan : PlanBounds p l.loopPc plan) (hbefore : l.preparationPc + 1 ≤ plan.comparisonPc)
    (hpc : s.pc = plan.continuationBegin) (hcarried : CarriedDefined l s.registers) :
    Passes p l s l.loopPc := by
  have haction := hplan.action
  have hinside := hplan.inside.1
  have halternate := hplan.alternate
  exact passes_part haccepted.continuation (by omega) le_rfl hpc hcarried

/-- The action of a condition leaves the loop or leads to its end. -/
lemma run_action {plan : GuardedBodyPlan} (haccepted : GuardedAccepted p l plan)
    (hplan : PlanBounds p l.loopPc plan) (hbefore : l.preparationPc + 1 ≤ plan.comparisonPc)
    (hexit : StraightFrom p l.carried none (l.loopPc + 1) p.sizecode true)
    (hpc : s.pc = plan.actionBegin) (hcarried : CarriedDefined l s.registers) :
    if plan.kind.leaves then Finishes p s else Passes p l s l.loopPc := by
  have haction := hplan.action
  have hend := hplan.actionEnd
  have hinside := hplan.inside
  have halternate := hplan.alternate
  have hpart := haccepted.action
  have hbounds := hplan.kind
  rcases hkind : plan.kind
  all_goals simp only [hkind] at hpart hbounds
  case «break» =>
    obtain ⟨hjump, htarget, -⟩ := hbounds
    rw [← hpc] at hjump htarget
    have hout : jumpAt p s.pc = (l.loopPc + 1 : Nat) := by exact_mod_cast htarget
    exact .of_leads (leads_of_jump hjump hout) (finishes_exit hexit rfl hcarried)
  case «return» =>
    rcases run_part hpart (by omega) (by omega) hpc hcarried with ⟨hreturned, -⟩ | ⟨-, hfinishes⟩
    · cases hreturned
    · exact hfinishes
  case conditionalBody =>
    obtain ⟨-, -, -, hnext, hcontinuation⟩ := hbounds
    apply (passes_part hpart (by omega) (by omega) hpc hcarried).trans
    intro s' hpc' hkeeps
    exact passes_continuation haccepted hplan hbefore (by omega) (hcarried.keeps hkeeps)
  case conditionalElse =>
    obtain ⟨-, -, -, hjump, htarget, -⟩ := hbounds
    apply (passes_part hpart (by omega) (by omega) hpc hcarried).trans
    intro s' hpc' hkeeps
    rw [← hpc'] at hjump htarget
    exact .of_leads (leads_of_jump hjump htarget) (.refl p l s'.registers)
      (passes_continuation haccepted hplan hbefore rfl (hcarried.keeps hkeeps))

/-- The alternative of a guarded body runs to the rest. -/
lemma run_alternate {plan : GuardedBodyPlan} (haccepted : GuardedAccepted p l plan)
    (hplan : PlanBounds p l.loopPc plan) (hbefore : l.preparationPc + 1 ≤ plan.comparisonPc)
    (hpc : s.pc = plan.alternateBegin) (hcarried : CarriedDefined l s.registers) :
    Passes p l s l.loopPc := by
  have haction := hplan.action
  have hinside := hplan.inside
  have hbounds := hplan.kind
  by_cases helse : plan.kind = .conditionalElse
  · apply (passes_part (haccepted.alternate helse) (by omega) (by omega) hpc hcarried).trans
    intro s' hpc' hkeeps
    exact passes_continuation haccepted hplan hbefore hpc' (hcarried.keeps hkeeps)
  · have hcontinuation : plan.continuationBegin = plan.alternateBegin := by
      rcases hkind : plan.kind
      all_goals simp only [hkind] at hbounds
      case conditionalElse => exact absurd hkind helse
      case «break» => exact hbounds.2.2
      case «return» => exact hbounds.2.2
      case conditionalBody => exact hbounds.2.2.2.2
    exact passes_continuation haccepted hplan hbefore (by omega) hcarried

/-- A body with a condition comes to its condition, unless it divides by zero, and the condition
decides whether the loop is left. -/
lemma run_guarded {plan : GuardedBodyPlan} (haccepted : GuardedAccepted p l plan)
    (hplan : PlanBounds p l.loopPc plan) (hbefore : l.preparationPc + 1 ≤ plan.comparisonPc)
    (hcomparison : isIntegerComparison (p.fetch plan.comparisonPc).opcode = true)
    (hexit : StraightFrom p l.carried none (l.loopPc + 1) p.sizecode true)
    (hpc : s.pc = l.preparationPc + 1) (hcarried : CarriedDefined l s.registers) :
    (∃ q, Iterates p s (.divisionByZero q) 0) ∨ ∃ s₁ x y, Leads p s 0 s₁ ∧
      KeepsBody p l s.registers s₁.registers ∧
      operands p s₁ (p.fetch plan.comparisonPc) = some (x, y) ∧
      if plan.kind.leaves ∧ TakesAction p plan.comparisonPc x y then Finishes p s₁
      else Passes p l s₁ l.loopPc := by
  obtain ⟨values, values', hcarries, hstraight, hoperands⟩ := haccepted.before
  have haction := hplan.action
  have hinside := hplan.inside
  have halternate := hplan.alternate
  have hrun := run_straight (I := fun _ registers => KeepsBody p l s.registers registers)
    (fun s' w hpc' hwrites hkeeps => KeepsBody.write le_rfl (by omega) hpc' hwrites hkeeps)
    hstraight hpc (defined_of_carries hcarries hcarried) (.refl p l s.registers)
  rcases hrun with ⟨-, s₁, hleads, hat, hdefined, hkeeps⟩ | ⟨hreturned, -⟩ | hdivision
  · right
    rw [← hat] at hcomparison hoperands
    have htarget : jumpAt p (s₁.pc + 1) = plan.alternateBegin := by rw [hat, hplan.target]
    obtain ⟨x, y, hxy, hnext⟩ := leads_of_comparison hcomparison hoperands hdefined htarget
    refine ⟨s₁, x, y, hleads, hkeeps, by rwa [← hat], ?_⟩
    by_cases htakes : TakesAction p s₁.pc x y
    · rw [if_pos htakes, hat, ← haction] at hnext
      have hafter := run_action haccepted hplan hbefore hexit
        (s := { s₁ with pc := plan.actionBegin }) rfl (hcarried.keeps hkeeps)
      rw [hat] at htakes
      by_cases hleaves : plan.kind.leaves = true
      · rw [if_pos hleaves] at hafter
        rw [if_pos ⟨hleaves, htakes⟩]
        exact .of_leads hnext hafter
      · rw [if_neg hleaves] at hafter
        rw [if_neg fun h => hleaves h.1]
        exact .of_leads hnext (.refl p l s₁.registers) hafter
    · rw [if_neg htakes] at hnext
      rw [hat] at htakes
      rw [if_neg fun h => htakes h.2]
      exact .of_leads hnext (.refl p l s₁.registers)
        (run_alternate haccepted hplan hbefore rfl (hcarried.keeps hkeeps))
  · cases hreturned
  · exact .inl hdivision

end bodies

/-! ## Loops -/

/-- An iteration is about to run: what the three registers of the loop hold. -/
structure AtBody (l : LoopSite) (s : State) (count step index : Word) : Prop where
  pc : s.pc = l.preparationPc + 1
  count : s.registers l.stateBase = some count
  step : s.registers (l.stateBase + 1) = some step
  index : s.registers (l.stateBase + 2) = some index
  carried : CarriedDefined l s.registers

/-- Registers that neither the loop nor its body writes are the same. -/
def SameOutside (p : Proto) (l : LoopSite) (before after : Registers) : Prop :=
  ∀ r, (r < l.stateBase ∨ l.stateBase + 2 < r) →
    Unwritten p (l.preparationPc + 1) l.loopPc r → after r = before r

section iterations

variable {p : Proto} {l : LoopSite} {guarded : Option GuardedBodyPlan}
  (haccepted : AcceptedLoop p l guarded) {s : State} {count step index : Word} {o : Outcome}
  {n : Nat}
include haccepted

/-- The loop instruction goes on with its count and index. -/
lemma step_forLoop (hpc : s.pc = l.loopPc) (hcount : s.registers l.stateBase = some count)
    (hstep : s.registers (l.stateBase + 1) = some step)
    (hindex : s.registers (l.stateBase + 2) = some index) :
    Vm.step p s = some (.next (if count = 0 then { s with pc := l.loopPc + 1 }
      else ⟨l.preparationPc + 1, Function.update (Function.update s.registers l.stateBase
        (some (count - 1))) (l.stateBase + 2) (some (index + step))⟩)) ∧
      ∀ s', begins p s s' = decide (count ≠ 0) := by
  obtain ⟨-, hopcode, hback⟩ := haccepted.latch
  have hbase := haccepted.state.2
  have hloop := haccepted.loop
  have htarget : l.loopPc + 1 - (l.loopPc - l.preparationPc) = l.preparationPc + 1 := by omega
  constructor
  · simp only [Vm.step, hpc, hopcode, forLoop, hbase, hcount, hstep, hindex, hback, htarget]
    split_ifs with hzero
    · exact if_pos hzero
    · exact if_neg hzero
  · intro s'
    simp only [begins, hpc, hopcode, hbase, hcount]
    by_cases hzero : count = 0
    · simp [hzero]
    · rw [decide_eq_true hzero]
      exact bne_iff_ne.mpr fun heq => hzero (Option.some.inj heq)

/-- The preparation fails for its step, skips the loop, or begins its first iteration. -/
lemma iterates_of_prepared {init limit : Word} (hpc : s.pc = l.preparationPc)
    (hinit : s.registers l.stateBase = some init)
    (hlimit : s.registers (l.stateBase + 1) = some limit)
    (hstep : s.registers (l.stateBase + 2) = some step) (hcarried : CarriedDefined l s.registers)
    (hruns : Iterates p s o n) :
    (step = 0 ∧ o = .stepIsZero ∧ n = 0) ∨
      (step ≠ 0 ∧ forSkips init limit step = true ∧ o ≠ .stepIsZero ∧ n = 0) ∨
      step ≠ 0 ∧ forSkips init limit step = false ∧ ∃ s' m,
        AtBody l s' (forCount init limit step) step init ∧
        SameOutside p l s.registers s'.registers ∧ Iterates p s' o m ∧ n = m + 1 := by
  have hopcode : (p.fetch s.pc).opcode = .forPrep := by
    rw [hpc]
    have hinside : l.preparationPc < p.sizecode := by
      have hlatch := haccepted.latch.1
      have hloop := haccepted.loop
      omega
    exact (findPreparation_spec haccepted.preparation _ hinside).mpr rfl
  have hbase : (p.fetch s.pc).A = l.stateBase := by rw [hpc, haccepted.base]
  have hbegins : ∀ s', begins p s s' = (s'.pc == s.pc + 1) := by
    intro s'
    simp only [begins, hopcode]
  have hprepares : Vm.step p s = forPrep s (p.fetch s.pc) := by
    simp only [Vm.step, hopcode]
  rw [forPrep, hbase, hinit, hlimit, hstep] at hprepares
  by_cases hzero : step = 0
  · have hfails : Vm.step p s = some (.done .stepIsZero) := hprepares.trans (if_pos hzero)
    obtain ⟨rfl, rfl⟩ := (iterates_done hfails).mp hruns
    exact .inl ⟨hzero, rfl, rfl⟩
  have hprepares' := hprepares.trans (if_neg hzero)
  by_cases hskips : forSkips init limit step = true
  · have hskip : Vm.step p s = some (.next { s with pc := l.loopPc + 1 }) := by
      rw [haccepted.loop, ← hpc]
      exact hprepares'.trans (if_pos hskips)
    have hloop := haccepted.loop
    obtain ⟨m, hrest, rfl⟩ := (iterates_next hskip).mp hruns
    obtain ⟨o', ho', hfinishes⟩ := finishes_exit haccepted.exit
      (s := { s with pc := l.loopPc + 1 }) rfl hcarried
    obtain ⟨rfl, rfl⟩ := hrest.unique hfinishes
    refine .inr (.inl ⟨hzero, hskips, ho', ?_⟩)
    rw [hbegins, hpc, beq_eq_false_iff_ne.mpr (by dsimp only; omega)]
    rfl
  · have henters := hprepares'.trans (if_neg hskips)
    obtain ⟨m, hrest, rfl⟩ := (iterates_next henters).mp hruns
    refine .inr (.inr ⟨hzero, by simpa using hskips, _, m, ⟨?_, ?_, ?_, ?_, fun r hr => ?_⟩,
      fun r hr _ => ?_, hrest, ?_⟩)
    · dsimp only
      rw [hpc]
    · dsimp only
      rw [Function.update_of_ne (by omega), Function.update_of_ne (by omega),
        Function.update_self]
    · dsimp only
      rw [Function.update_of_ne (by omega), Function.update_self]
    · exact Function.update_self _ _ _
    · dsimp only
      simp only [Function.update_apply]
      split_ifs
      · rfl
      · rfl
      · rfl
      · exact hcarried r hr
    · dsimp only
      rw [Function.update_of_ne (by omega), Function.update_of_ne (by omega),
        Function.update_of_ne (by omega)]
    · rw [hbegins, beq_self_eq_true]
      rfl

/-- The end of an iteration leaves the loop or begins the next one. -/
lemma iterates_of_passes (hs : AtBody l s count step index) (hpasses : Passes p l s l.loopPc)
    (hruns : Iterates p s o n) :
    (n = 0 ∧ o ≠ .stepIsZero ∧ (count = 0 ∨ ∃ q, o = .divisionByZero q)) ∨
      count ≠ 0 ∧ ∃ s' m, AtBody l s' (count - 1) step (index + step) ∧
        SameOutside p l s.registers s'.registers ∧ Iterates p s' o m ∧ n = m + 1 := by
  rcases hpasses with ⟨s₁, hleads, hpc, hkeeps⟩ | ⟨q, hdivision⟩
  · have hkeep : ∀ offset ≤ 2, s₁.registers (l.stateBase + offset) =
        s.registers (l.stateBase + offset) := fun offset hoffset =>
      hkeeps.state _ (Nat.le_add_right _ _) (Nat.add_le_add_left hoffset _)
    have hcarried := hs.carried.keeps hkeeps
    obtain ⟨hstep, hbegins⟩ := step_forLoop haccepted hpc ((hkeep 0 (by omega)).trans hs.count)
      ((hkeep 1 (by omega)).trans hs.step) ((hkeep 2 le_rfl).trans hs.index)
    obtain ⟨m, hrest, rfl⟩ := (iterates_next hstep).mp (hleads.iterates.mp hruns)
    by_cases hzero : count = 0
    · left
      rw [hbegins, hzero]
      rw [if_pos hzero] at hrest
      obtain ⟨o', ho', hfinishes⟩ := finishes_exit haccepted.exit
        (s := { s₁ with pc := l.loopPc + 1 }) rfl hcarried
      obtain ⟨rfl, rfl⟩ := hrest.unique hfinishes
      exact ⟨rfl, ho', .inl rfl⟩
    · right
      rw [hbegins, decide_eq_true hzero]
      rw [if_neg hzero] at hrest
      refine ⟨hzero, _, m, ⟨rfl, ?_, ?_, ?_, fun r hr => ?_⟩, fun r hr hfree => ?_, hrest, rfl⟩
      · dsimp only
        rw [Function.update_of_ne (by omega), Function.update_self]
      · dsimp only
        rw [Function.update_of_ne (by omega), Function.update_of_ne (by omega),
          hkeep 1 (by omega), hs.step]
      · exact Function.update_self _ _ _
      · dsimp only
        by_cases hlast : r = l.stateBase + 2
        · rw [hlast, Function.update_self]
          rfl
        · rw [Function.update_of_ne hlast]
          by_cases hfirst : r = l.stateBase
          · rw [hfirst, Function.update_self]
            rfl
          · rw [Function.update_of_ne hfirst]
            exact hcarried r hr
      · dsimp only
        rw [Function.update_of_ne (by omega), Function.update_of_ne (by omega),
          hkeeps.unwritten r hfree]
  · obtain ⟨rfl, rfl⟩ := hruns.unique hdivision
    exact .inl ⟨rfl, by simp, .inr ⟨q, rfl⟩⟩

/-- The body of a loop without a condition is passed, unless it divides by zero. -/
lemma passes_body (hguarded : guarded = none) (hpc : s.pc = l.preparationPc + 1)
    (hcarried : CarriedDefined l s.registers) : Passes p l s l.loopPc := by
  have hbody := haccepted.body
  subst hguarded
  exact passes_part hbody le_rfl le_rfl hpc hcarried

/-- The condition of a body decides whether the loop is left. -/
lemma run_condition {plan : GuardedBodyPlan} (hguarded : guarded = some plan)
    (hpc : s.pc = l.preparationPc + 1) (hcarried : CarriedDefined l s.registers) :
    (∃ q, Iterates p s (.divisionByZero q) 0) ∨ ∃ s₁ x y, Leads p s 0 s₁ ∧
      KeepsBody p l s.registers s₁.registers ∧
      operands p s₁ (p.fetch plan.comparisonPc) = some (x, y) ∧
      if plan.kind.leaves ∧ TakesAction p plan.comparisonPc x y then Finishes p s₁
      else Passes p l s₁ l.loopPc := by
  have hbody := haccepted.body
  subst hguarded
  obtain ⟨hbefore, -, hcomparison, hbounds, -⟩ := findGuardedBody_spec haccepted.guard plan rfl
  exact run_guarded hbody hbounds hbefore hcomparison haccepted.exit hpc hcarried

/-- One iteration passes to the loop instruction or finishes the run. -/
lemma passes_or_finishes (hpc : s.pc = l.preparationPc + 1)
    (hcarried : CarriedDefined l s.registers) : Passes p l s l.loopPc ∨ Finishes p s := by
  rcases hguarded : guarded with - | plan
  · exact .inl (passes_body haccepted hguarded hpc hcarried)
  · rcases run_condition haccepted hguarded hpc hcarried with
      ⟨q, hdivision⟩ | ⟨s₁, x, y, hleads, hkeeps, -, hnext⟩
    · exact .inr (.of_division hdivision)
    · split_ifs at hnext
      · exact .inr (.of_leads hleads hnext)
      · exact .inl (.of_leads hleads hkeeps hnext)

/-- A loop begins at most as many further iterations as it counts, and does not end for its step. -/
lemma le_of_iterates (hs : AtBody l s count step index) (hruns : Iterates p s o n) :
    n ≤ count.toNat ∧ o ≠ .stepIsZero := by
  obtain ⟨bound, hbound⟩ : ∃ bound, count.toNat = bound := ⟨_, rfl⟩
  induction bound generalizing s count index n with
  | zero =>
      rcases passes_or_finishes haccepted hs.pc hs.carried with
        hpasses | ⟨o', ho', hfinishes⟩
      · rcases iterates_of_passes haccepted hs hpasses hruns with ⟨rfl, ho, -⟩ | ⟨hzero, -⟩
        · exact ⟨Nat.zero_le _, ho⟩
        · exact absurd (BitVec.eq_of_toNat_eq hbound) hzero
      · obtain ⟨rfl, rfl⟩ := hruns.unique hfinishes
        exact ⟨Nat.zero_le _, ho'⟩
  | succ bound ih =>
      rcases passes_or_finishes haccepted hs.pc hs.carried with
        hpasses | ⟨o', ho', hfinishes⟩
      · rcases iterates_of_passes haccepted hs hpasses hruns with
          ⟨rfl, ho, -⟩ | ⟨hzero, s', m, hs', -, hrest, rfl⟩
        · exact ⟨Nat.zero_le _, ho⟩
        · have hpred : (count - 1).toNat = bound := by
            rw [BitVec.toNat_sub_of_le (by simp [BitVec.le_def]; omega)]
            simp [hbound]
          obtain ⟨hle, ho⟩ := ih hs' hrest hpred
          exact ⟨by omega, ho⟩
      · obtain ⟨rfl, rfl⟩ := hruns.unique hfinishes
        exact ⟨Nat.zero_le _, ho'⟩

/-- A loop whose body leaves it by its index begins the iterations up to the first such index. -/
lemma stopsAt_of_iterates {J : Registers → Prop} {E : Word → Prop}
    (hJ : ∀ before after, SameOutside p l before after → J before → J after)
    (hbody : ∀ s count index, AtBody l s count step index → J s.registers →
      (∃ q, Iterates p s (.divisionByZero q) 0) ∨ (E index ∧ Finishes p s) ∨
        ¬E index ∧ Passes p l s l.loopPc)
    (hs : AtBody l s count step index) (hinvariant : J s.registers) {v : Word}
    (hruns : Iterates p s (.returned v) n) :
    StopsAt (fun k => E (index + BitVec.ofNat 64 k * step)) (count.toNat + 1) (n + 1) := by
  obtain ⟨bound, hbound⟩ : ∃ bound, count.toNat = bound := ⟨_, rfl⟩
  have hfirst : ∀ index : Word, index + BitVec.ofNat 64 0 * step = index := by
    intro index
    simp
  induction bound generalizing s count index n with
  | zero =>
      rcases hbody s count index hs hinvariant with ⟨q, hdivision⟩ | ⟨hE, o', -, hfinishes⟩ |
        ⟨hE, hpasses⟩
      · cases (hruns.unique hdivision).1
      · obtain ⟨-, rfl⟩ := hruns.unique hfinishes
        exact .of_first (by rwa [hfirst]) (by omega)
      · rcases iterates_of_passes haccepted hs hpasses hruns with ⟨rfl, -, -⟩ | ⟨hzero, -⟩
        · rw [hbound]
          exact .of_last (by rwa [hfirst])
        · exact absurd (BitVec.eq_of_toNat_eq hbound) hzero
  | succ bound ih =>
      rcases hbody s count index hs hinvariant with ⟨q, hdivision⟩ | ⟨hE, o', -, hfinishes⟩ |
        ⟨hE, hpasses⟩
      · cases (hruns.unique hdivision).1
      · obtain ⟨-, rfl⟩ := hruns.unique hfinishes
        exact .of_first (by rwa [hfirst]) (by omega)
      · rcases iterates_of_passes haccepted hs hpasses hruns with
          ⟨rfl, -, hzero | ⟨q, hq⟩⟩ | ⟨hzero, s', m, hs', hsame, hrest, rfl⟩
        · rw [hzero] at hbound
          cases hbound
        · cases hq
        · have hpred : (count - 1).toNat = bound := by
            rw [BitVec.toNat_sub_of_le (by simp [BitVec.le_def]; omega)]
            simp [hbound]
          have hnext := ih hs' (hJ _ _ hsame hinvariant) hrest hpred
          rw [hpred] at hnext
          rw [hbound]
          apply StopsAt.succ (by rwa [hfirst])
          apply hnext.congr
          intro k _
          have hindex : index + step + BitVec.ofNat 64 k * step =
              index + BitVec.ofNat 64 (k + 1) * step := by
            have hsucc : BitVec.ofNat 64 (k + 1) = BitVec.ofNat 64 k + 1#64 :=
              BitVec.ofNat_add k 1
            rw [hsucc, BitVec.add_mul, BitVec.one_mul, BitVec.add_assoc, BitVec.add_comm step]
          rw [hindex]

end iterations

end Vm

end UniJit.Lua
