import UniJit.Lua.LoopHotness
import UniJit.Lua.LoopLatches

/-!
# The way into a loop

Where the machine is at `OP_FORPREP`, the code compares the start with the limit and enters the
first iteration exactly if the machine does (`yields_entry`). If the step is not known, its sign is
looked at before (`closing_emitSignedEntry`).
-/

namespace UniJit.Lua

open UniJit.Ir UniJit.Lib UniJit.Runtime LawfulScalarBuilder ControlFlowBuilder

lemma wordOfBool_ne_zero {c : Prop} [Decidable c] : wordOfBool (decide c) ≠ 0 ↔ c := by
  by_cases hc : c <;> simp [wordOfBool, hc]

/-- The condition of a loop that is entered, for the sign of its step. -/
lemma forSkips_of_pos {init limit step : Word} (h : 0 < step.toInt) :
    forSkips init limit step = false ↔ init.toInt ≤ limit.toInt := by
  simp [forSkips, h]

lemma forSkips_of_nonpos {init limit step : Word} (h : ¬0 < step.toInt) :
    forSkips init limit step = false ↔ limit.toInt ≤ init.toInt := by
  simp [forSkips, h]

/-- A run and the machine have come to a loop. -/
structure AtLoop (l : LoopSite) (a : Arrival) (registers : Registers) : Prop where
  holds : l.HoldsLoop a.limit l.registers registers a.bound a.values
  start : registers l.stateBase = some a.start
  limit : registers (l.stateBase + 1) = some a.limit
  step : registers (l.stateBase + 2) = some a.step
  step_ne : a.step ≠ 0

namespace LoopSite

variable (l : LoopSite)

/-- The registers in the first iteration. -/
def entered (registers : Registers) (count step start : Word) : Registers :=
  l.advance (Function.update registers (l.stateBase + 1) (some step)) count start

variable {l} {registers : Registers} {count step start limit : Word}

/-- After the preparation the loop is looping. -/
lemma looping_entered : l.Looping (l.entered registers count step start) count step start := by
  refine ⟨?_, ?_, Function.update_self ..⟩
  · rw [entered, advance, Function.update_of_ne (by omega), Function.update_self]
  · rw [entered, advance, Function.update_of_ne (by omega), Function.update_of_ne (by omega),
      Function.update_self]

/-- The step is not visible. -/
lemma view_update : l.view limit (Function.update registers (l.stateBase + 1) (some step)) =
    l.view limit registers :=
  Function.update_idem ..

/-- The initial arguments are the skipped ones with the index. -/
lemma initialArguments_eq : l.initialArguments = l.withIndex l.skippedArguments l.start := by
  have hpairs : l.carried.zip l.skippedArguments =
      l.carried.map fun r => (r, l.registers.getD r .invalid) := by
    rw [skippedArguments, List.zip_eq_zipWith, List.zipWith_map_right, List.zipWith_self]
  rw [withIndex, hpairs, List.map_map]
  rfl

end LoopSite

section entries

variable {f : ControlFlowFunction} {host : Host} {p : Proto} {l : LoopSite} {a : Arrival}
  {e e' : Emitter ControlFlowBuilder} {s : Values} {m : Machine} {registers : Registers}
  {guarded : Option GuardedBodyPlan}

namespace Vm

/-- The preparation skips the loop or begins its first iteration. -/
lemma step_forPrep (haccepted : AcceptedLoop p l guarded) (hat : AtLoop l a registers) :
    step p ⟨l.preparationPc, registers⟩ = some (.next (
      if forSkips a.start a.limit a.step = true then ⟨l.loopPc + 1, registers⟩
      else ⟨l.preparationPc + 1,
        l.entered registers (forCount a.start a.limit a.step) a.step a.start⟩)) := by
  have hinside : l.preparationPc < p.sizecode := by
    have hlatch := haccepted.latch.1
    have hloop := haccepted.loop
    omega
  have hopcode := (findPreparation_spec haccepted.preparation _ hinside).mpr rfl
  have hprepares : step p ⟨l.preparationPc, registers⟩ =
      forPrep ⟨l.preparationPc, registers⟩ (p.fetch l.preparationPc) := by
    simp only [step, hopcode]
  have htarget : l.preparationPc + (p.fetch l.preparationPc).Bx + 2 = l.loopPc + 1 := by
    have hloop := haccepted.loop
    omega
  rw [hprepares, forPrep, haccepted.base]
  dsimp only
  rw [hat.start, hat.limit, hat.step]
  simp only [Option.bind_eq_bind, Option.bind_some, htarget]
  rw [if_neg hat.step_ne]
  split_ifs with hskips
  · rfl
  · have hdistinct : l.stateBase ≠ l.stateBase + 1 := by omega
    rw [LoopSite.entered, LoopSite.advance, Function.update_comm hdistinct]
    rfl

end Vm

/-- Skipping the loop supplies the registers as they are. -/
lemma AtLoop.supplies_skipped (hat : AtLoop l a registers)
    (hcarried : ∀ r ∈ l.carried, (l.registers.getD r .invalid).valid)
    (hkeeps : Keeps a.bound a.values s) : Supplies l a.limit registers s l.skippedArguments :=
  supplies_completed
    (hat.holds.mono (fun _ hr => hr) (fun _ _ => rfl) hkeeps le_rfl) hcarried

/-- Entering the loop supplies the registers with the first index. -/
lemma AtLoop.supplies_initial (hat : AtLoop l a registers) (harrives : Arrives f l a)
    (hcarried : ∀ r ∈ l.carried, (l.registers.getD r .invalid).valid)
    (hkeeps : Keeps a.bound a.values s) (count : Word) :
    Supplies l a.limit (l.entered registers count a.step a.start) s l.initialArguments := by
  have hskipped : Supplies l a.limit (Function.update registers (l.stateBase + 1) (some a.step)) s
      l.skippedArguments := by
    intro index r hget hr
    rw [LoopSite.view_update]
    exact hat.supplies_skipped hcarried hkeeps index r hget hr
  rw [LoopSite.initialArguments_eq]
  refine hskipped.withIndex (List.length_map _) ?_ count
  rw [hkeeps.word _ harrives.start.1, harrives.start.2]

section entering

variable {dispatch exit : Block} {dFirst dCount xFirst : Nat} {extra : List Value}
  {C : Word → Word → Values → Prop}
  (haccepted : AcceptedLoop p l guarded) (harrives : Arrives f l a) (hat : AtLoop l a registers)
  (hpart : e'.builder.function.PartOf f) (hdispatch : Placed f a e.builder dispatch dFirst dCount)
  (hexit : Placed f a e.builder exit xFirst l.carried.length) (hkeeps : Keeps a.bound a.values s)
  (hbegins : BeginsAt f host p l a dispatch dFirst C (2 ^ 64))
  (hexitRuns : ExitRuns f host p l a exit xFirst)
include haccepted harrives hat hpart hdispatch hexit hkeeps hbegins hexitRuns

/-- The loop is entered as the machine enters it. -/
lemma yields_entry {condition : Value}
    (hbranch : emitBranch condition dispatch (l.initialArguments ++ extra) exit l.skippedArguments e =
      .ok () e')
    (hcondition : s.word condition ≠ 0 ↔ forSkips a.start a.limit a.step = false)
    (hC : forSkips a.start a.limit a.step = false → ∀ s', PassedOn l dFirst extra s s' →
      C (forCount a.start a.limit a.step) a.start s') :
    f.Yields host e.builder s m (Agrees p ⟨l.preparationPc, registers⟩) := by
  have hstep := Vm.step_forPrep haccepted hat
  have hinitial : l.initialArguments.length = l.carried.length := List.length_map _
  refine .branch_to (emitBranch_run hbranch) hpart hdispatch.created.parameters
    hexit.created.parameters (hkeeps.length.trans harrives.length)
    (fun hne hlengths s' hpasses => ?_) fun hzero hlengths s' hpasses => ?_
  · have hskips := hcondition.mp hne
    rw [hskips, if_neg Bool.false_ne_true] at hstep
    have hle : l.carried.length ≤ dCount := by
      rw [List.length_append, hinitial] at hlengths
      omega
    have henters := enters_of_passes hpasses hle hkeeps hdispatch.bound
      ((hat.supplies_initial harrives haccepted.carried hkeeps
        (forCount a.start a.limit a.step)).append hinitial extra)
    have hpassed := passedOn_of_passes hpasses hinitial hlengths
    exact (hbegins s' m _ _ _ henters LoopSite.looping_entered (hC hskips s' hpassed)
      (BitVec.isLt _)).mono fun r hr => hr.of_step hstep
  · have hskips : forSkips a.start a.limit a.step = true := by
      by_contra hnot
      exact hcondition.mpr (by simpa using hnot) hzero
    rw [if_pos hskips] at hstep
    have henters := enters_of_passes hpasses le_rfl hkeeps hexit.bound
      (hat.supplies_skipped haccepted.carried hkeeps)
    exact (hexitRuns s' m registers henters trivial).mono fun r hr => hr.of_step hstep

omit hpart in
/-- The start is compared with the limit, in the direction of the loop. -/
lemma yields_ordered_entry {ascending : Bool} {condition : Value} {e₁ : Emitter ControlFlowBuilder}
    (hascending : ascending = decide (0 < a.step.toInt))
    (hcompare : emitOrdered ascending .lessEqual l.start l.limit e = .ok condition e₁)
    (hbranch : emitBranch condition dispatch (l.initialArguments ++ extra) exit l.skippedArguments
      e₁ = .ok () e') (hpart : e'.builder.function.PartOf f)
    (hbound : a.bound ≤ e.builder.function.nodes.length)
    (hC : forSkips a.start a.limit a.step = false → ∀ s₁ s',
      Keeps e.builder.function.nodes.length s s₁ → PassedOn l dFirst extra s₁ s' →
      C (forCount a.start a.limit a.step) a.start s') :
    f.Yields host e.builder s m (Agrees p ⟨l.preparationPc, registers⟩) := by
  have hgrows := grows_emitOrdered hcompare
  have haccepts := accepts_of_emitOrdered hcompare (valid_of_emitBranch hbranch).1
  obtain ⟨hstart, hlimit, -⟩ := harrives.valid
  have hstart' := harrives.start
  have hlimit' := harrives.limit
  obtain ⟨s₁, h₁⟩ := obtains_emitOrdered (f.code host) hcompare haccepts
    ((partOf_emitBranch hbranch).trans hpart) (hkeeps.length.trans harrives.length)
    ⟨hstart, hstart'.1.trans_le hbound⟩
    ⟨hlimit, hlimit'.1.trans_le hbound⟩ m
  refine h₁.leads _ ?_
  have hpart' := (inBlock_of_grows hgrows).part
  refine yields_entry haccepted harrives hat hpart (hdispatch.mono hpart') (hexit.mono hpart')
    (hkeeps.trans h₁.keeps hbound) hbegins hexitRuns hbranch ?_ fun hskips s' =>
      hC hskips s₁ s' h₁.keeps
  rw [h₁.word, hascending, hkeeps.word _ hstart'.1, hkeeps.word _ hlimit'.1, hstart'.2, hlimit'.2]
  by_cases hpos : 0 < a.step.toInt
  · rw [forSkips_of_pos hpos, decide_eq_true hpos]
    exact wordOfBool_ne_zero
  · rw [forSkips_of_nonpos hpos, decide_eq_false hpos]
    exact wordOfBool_ne_zero

end entering

/-! ### The two ways in -/

/-- From a point before the loop, a run goes on as the machine does, if it does so from the blocks
that the entry leads to. -/
def EntersFrom (f : ControlFlowFunction) (host : Host) (p : Proto) (l : LoopSite) (a : Arrival)
    (b : ControlFlowBuilder) (dispatch exit : Block) (extra : List Value) : Prop :=
  ∀ dFirst dCount xFirst C s m registers, Placed f a b dispatch dFirst dCount →
    Placed f a b exit xFirst l.carried.length → BeginsAt f host p l a dispatch dFirst C (2 ^ 64) →
    ExitRuns f host p l a exit xFirst → AtLoop l a registers → Keeps a.bound a.values s →
    a.bound ≤ b.function.nodes.length →
    (forSkips a.start a.limit a.step = false → ∀ s₁ s', Keeps b.function.nodes.length s s₁ →
      PassedOn l dFirst extra s₁ s' → C (forCount a.start a.limit a.step) a.start s') →
    f.Yields host b s m (Agrees p ⟨l.preparationPc, registers⟩)

/-- From a point before the loop, a run goes on as the machine does from the loop's preparation. -/
def RunsLoop (f : ControlFlowFunction) (host : Host) (p : Proto) (l : LoopSite) (a : Arrival)
    (b : ControlFlowBuilder) : Prop :=
  ∀ s m registers, AtLoop l a registers → Keeps a.bound a.values s →
    f.Yields host b s m (Agrees p ⟨l.preparationPc, registers⟩)

section ways

variable {dispatch exit : Block} {extra : List Value} (haccepted : AcceptedLoop p l guarded)
  (harrives : Arrives f l a)
include haccepted harrives

/-- The emitted comparison of start and limit decides the entry. -/
lemma entersFrom_ordered {ascending : Bool} {condition : Value} {e₁ : Emitter ControlFlowBuilder}
    (hascending : ascending = decide (0 < a.step.toInt))
    (hcompare : emitOrdered ascending .lessEqual l.start l.limit e = .ok condition e₁)
    (hbranch : emitBranch condition dispatch (l.initialArguments ++ extra) exit l.skippedArguments
      e₁ = .ok () e') (hpart : e'.builder.function.PartOf f) :
    EntersFrom f host p l a e.builder dispatch exit extra := by
  intro dFirst dCount xFirst C s m registers hdispatch hexit hbegins hexitRuns hat hkeeps hbound hC
  exact yields_ordered_entry haccepted harrives hat hdispatch hexit hkeeps hbegins hexitRuns
    hascending hcompare hbranch hpart hbound hC

/-- The entry of a loop whose direction is known. -/
lemma closing_emitKnownEntry (host : Host) {ascending : Bool}
    (hascending : ascending = decide (0 < a.step.toInt))
    (h : emitKnownEntry l ascending dispatch exit (l.initialArguments ++ extra) e = .ok () e') :
    f.Closing e.builder e'.builder (EntersFrom f host p l a e.builder dispatch exit extra) := by
  obtain ⟨enters, e₁, hcompare, hbranch⟩ : ∃ enters e₁,
      emitOrdered ascending .lessEqual l.start l.limit e = .ok enters e₁ ∧
      emitBranch enters dispatch (l.initialArguments ++ extra) exit l.skippedArguments e₁ =
        .ok () e' := by
    rw [emitOrdered]
    cases ascending <;> exact bind_run_eq_ok.mp h
  exact (ControlFlowFunction.Closing.of_inBlock (inBlock_of_grows (grows_emitOrdered hcompare))
    (closing_emitBranch hbranch)).imp fun hpart _ =>
      entersFrom_ordered haccepted harrives hascending hcompare hbranch hpart

/-- The sign of the step decides which comparison enters the loop. -/
lemma closing_emitSignedEntry (host : Host) (howned : f.Owned) {positive nonpositive negative : Block}
    (hblocks : e.builder.function.PartOf f → ∀ block ∈ [positive, nonpositive, negative],
      ∃ first, f.Created e.builder block first 0)
    (h : emitSignedEntry l positive nonpositive negative dispatch exit
      (l.initialArguments ++ extra) e = .ok () e') :
    f.Closing e.builder e'.builder (EntersFrom f host p l a e.builder dispatch exit extra) := by
  simp only [emitSignedEntry, bind_run_eq_ok] at h
  obtain ⟨zero, e₁, hzero, isPositive, e₂, hpositive, ⟨⟩, e₃, hbranch, ⟨⟩, e₄, hset₁, ascends, e₅,
    hascends, ⟨⟩, e₆, hbranch₁, ⟨⟩, e₇, hset₂, isNegative, e₈, hnegative, ⟨⟩, e₉, hbranch₂, ⟨⟩, e₁₀,
    hset₃, descends, e₁₁, hdescends, hbranch₃⟩ := h
  have hgrows := (grows_emitConstant hzero).trans (grows_emitBinary hpositive)
  have hentry : f.Closing e.builder e₃.builder True :=
    .of_inBlock (inBlock_of_grows hgrows) (closing_emitBranch hbranch)
  have hfirst : f.Closing e₄.builder e₆.builder True :=
    .of_inBlock (inBlock_of_grows (grows_emitBinary hascends)) (closing_emitBranch hbranch₁)
  have hsecond : f.Closing e₇.builder e₉.builder True :=
    .of_inBlock (inBlock_of_grows (grows_emitBinary hnegative)) (closing_emitBranch hbranch₂)
  have hthird : f.Closing e₁₀.builder e'.builder True :=
    .of_inBlock (inBlock_of_grows (grows_emitBinary hdescends)) (closing_emitBranch hbranch₃)
  have hfilled₁ := hfirst.filled host howned (setInsertionBlock_run hset₁)
  have hfilled₂ := hsecond.filled host howned (setInsertionBlock_run hset₂)
  have hfilled₃ := hthird.filled host howned (setInsertionBlock_run hset₃)
  refine (((hentry.and hfilled₁).and hfilled₂).and hfilled₃).imp fun hpart hruns => ?_
  obtain ⟨⟨⟨-, -, hruns₁⟩, -, hruns₂⟩, -, hruns₃⟩ := hruns
  have hpart₉ := hfilled₃.part.trans hpart
  have hpart₆ := hfilled₂.part.trans hpart₉
  have hpart₃ := hfilled₁.part.trans hpart₆
  intro dFirst dCount xFirst C s m registers hdispatch hexit hbegins hexitRuns hat hkeeps hbound hC
  have hgo : ∀ (b : ControlFlowBuilder) (s' : Values), e.builder.function.PartOf b.function →
      EntersFrom f host p l a b dispatch exit extra → Keeps e.builder.function.nodes.length s s' →
      f.Yields host b s' m (Agrees p ⟨l.preparationPc, registers⟩) := by
    intro b s' hpart' henters hkeeps'
    have hle := hpart'.nodes.length_le
    exact henters dFirst dCount xFirst C s' m registers (hdispatch.mono hpart') (hexit.mono hpart')
      hbegins hexitRuns hat (hkeeps.trans hkeeps' hbound) (hbound.trans hle)
      fun hskips s₁ s'' hkeeps₁ => hC hskips s₁ s'' (hkeeps'.trans hkeeps₁ hle)
  have hin₂ := (inBlock_of_grows hgrows).part
  have hin₃ := hin₂.trans (partOf_emitBranch hbranch)
  have hin₄ := hin₃.trans (partOf_setInsertionBlock (setInsertionBlock_run hset₁))
  have hin₆ := hin₃.trans hfilled₁.part
  have hin₇ := hin₆.trans (partOf_setInsertionBlock (setInsertionBlock_run hset₂))
  have hin₈ := hin₇.trans (inBlock_of_grows (grows_emitBinary hnegative)).part
  have hin₉ := hin₆.trans hfilled₂.part
  have hin₁₀ := hin₉.trans (partOf_setInsertionBlock (setInsertionBlock_run hset₃))
  have hplace : ∀ block ∈ [positive, nonpositive, negative], ∀ b : ControlFlowBuilder,
      e.builder.function.PartOf b.function → b.function.PartOf f →
      f.Created b block b.function.nodes.length 0 := by
    intro block hblock b hpart' hfinal
    obtain ⟨first, hcreated⟩ := hblocks (hin₃.trans hpart₃) block hblock
    exact (hcreated.mono hpart').moved howned hfinal
  -- The sign of the step in the block of the entry.
  have hpart₂ := (partOf_emitBranch hbranch).trans hpart₃
  have hpart₁ := (inBlock_of_grows (grows_emitBinary hpositive)).part.trans hpart₂
  have haccepts₁ := accepts_of_emitBinary hpositive (valid_of_emitBranch hbranch).1
  have hlength := hkeeps.length.trans harrives.length
  obtain ⟨hstep, hstepWord⟩ := harrives.step
  obtain ⟨s₁, h₁⟩ := obtains_emitConstant (f.code host) hzero
    ((grows_emitConstant hzero).accepts haccepts₁) hpart₁ hlength m
  have hle₁ := (grows_emitConstant hzero).size_le
  obtain ⟨s₂, h₂⟩ := obtains_emitBinary (f.code host) hpositive haccepts₁ hpart₂
    (h₁.keeps.length.trans hlength)
    h₁.index_lt ⟨harrives.valid.2.2, (hstep.trans_le hbound).trans_le hle₁⟩ m
  have hkeeps₂ := h₁.keeps.trans h₂.keeps hle₁
  have hword₁ : s₁.word l.step = a.step := by
    rw [h₁.keeps.word _ (hstep.trans_le hbound), hkeeps.word _ hstep, hstepWord]
  have hword₂ : s₂.word l.step = a.step := by
    rw [hkeeps₂.word _ (hstep.trans_le hbound), hkeeps.word _ hstep, hstepWord]
  have hzero₂ : s₂.word zero = 0 := (h₂.keeps.word _ h₁.index_lt).trans h₁.word
  have hlength₂ := hkeeps₂.length.trans hlength
  refine h₁.leads _ (h₂.leads _ ?_)
  refine ControlFlowFunction.Yields.branch_to (emitBranch_run hbranch) hpart₃
    (hplace _ (by simp) _ hin₂ hpart₂).parameters
    (hplace _ (by simp) _ hin₂ hpart₂).parameters hlength₂ (fun hne _ s' hpasses => ?_)
    fun hzero' _ s' hpasses => ?_
  · have hpos : 0 < a.step.toInt := by
      rw [h₂.word, hword₁, h₁.word] at hne
      exact wordOfBool_ne_zero.mp hne
    have hyields := hgo e₄.builder s' hin₄ (entersFrom_ordered haccepted harrives
      (decide_eq_true hpos).symm hascends hbranch₁ hpart₆)
      (hkeeps₂.trans hpasses.keeps hin₂.nodes.length_le)
    exact hruns₁ s' m _ hyields
  · have hnonpos : ¬0 < a.step.toInt := by
      intro hpos
      rw [h₂.word, hword₁, h₁.word] at hzero'
      exact wordOfBool_ne_zero.mpr hpos hzero'
    have hneg : a.step.toInt < 0 := by
      have hne : a.step.toInt ≠ 0 := fun h => hat.step_ne (BitVec.eq_of_toInt_eq h)
      omega
    refine hruns₂ s' m _ ?_
    have hle₂ := (grows_emitBinary hpositive).size_le
    have hle₇ := (hfilled₁.part.trans (partOf_setInsertionBlock
      (setInsertionBlock_run hset₂))).nodes.length_le
    have hle₃ := (partOf_emitBranch hbranch).nodes.length_le
    have hstep₂ : l.step.index < e₂.builder.function.nodes.length :=
      (hstep.trans_le hbound).trans_le hin₂.nodes.length_le
    have hpart₈ := (partOf_emitBranch hbranch₂).trans hpart₉
    have hkeeps₇ := hpasses.keeps
    obtain ⟨s₃, h₃⟩ := obtains_emitBinary (f.code host) hnegative
      (accepts_of_emitBinary hnegative (valid_of_emitBranch hbranch₂).1) hpart₈
      (hkeeps₇.length.trans hlength₂) (hstep₂.trans_le (hle₃.trans hle₇))
      ⟨h₁.valid, h₁.index_lt.trans_le (hle₂.trans (hle₃.trans hle₇))⟩ m
    have hcondition : s₃.word isNegative ≠ 0 := by
      rw [h₃.word, hkeeps₇.word _ hstep₂, hkeeps₇.word _ (h₁.index_lt.trans_le hle₂), hword₂, hzero₂]
      exact wordOfBool_ne_zero.mpr hneg
    refine h₃.leads _ (ControlFlowFunction.Yields.branch_to (emitBranch_run hbranch₂) hpart₉
      (hplace _ (by simp) _ hin₈ hpart₈).parameters
      (hexit.mono hin₈).created.parameters (h₃.keeps.length.trans (hkeeps₇.length.trans hlength₂))
      (fun _ _ s'' hpasses' => ?_) fun hzero'' => absurd hzero'' hcondition)
    have hkeeps' := hkeeps₂.trans hkeeps₇ hin₂.nodes.length_le
    have hyields := hgo e₁₀.builder s'' hin₁₀ (entersFrom_ordered haccepted harrives
      (decide_eq_false hnonpos).symm hdescends hbranch₃ hpart)
      ((hkeeps'.trans h₃.keeps hin₇.nodes.length_le).trans hpasses'.keeps hin₈.nodes.length_le)
    exact hruns₃ s'' m _ hyields

end ways

end entries

end UniJit.Lua
