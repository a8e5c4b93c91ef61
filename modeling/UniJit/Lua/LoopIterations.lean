import UniJit.Lib.KeyedLists
import UniJit.Lua.LoopHotness

/-!
# How exact the estimate of loop iterations is

The estimate is exact if nothing leaves the loop, or if its exit compares the index with a threshold
that is known before the loop and that nothing in the loop writes (`LeavesByIndex`). Another exit is
not part of the plan, and then the estimate is what the bounds of the loop allow
(`estimate_exact`).
-/

namespace UniJit.Lua

open UniJit.Ir UniJit.Lib

/-! ## Exits by the index -/

/-- Whether a range leaves a register alone can be computed. -/
instance (p : Proto) (start stop r : Nat) : Decidable (Vm.Unwritten p start stop r) :=
  decidable_of_iff (∀ q < stop, start ≤ q → (p.fetch q).opcode.writesDestination = true →
      (p.fetch q).A ≠ r)
    ⟨fun h q hstart hstop => h q hstop hstart, fun h q hstop hstart => h q hstart hstop⟩

section exits

variable (p : Proto) (preparationPc : Nat)

/-- A register that is known before a loop and that neither the loop nor its body writes. -/
def Fixed (r : Nat) : Prop :=
  r < p.maxstacksize ∧ (symbolicRegisters p preparationPc).getD r .unknown ≠ .unknown ∧
    (r < (p.fetch preparationPc).A ∨ (p.fetch preparationPc).A + 2 < r) ∧
    Vm.Unwritten p (preparationPc + 1) (preparationPc + (p.fetch preparationPc).Bx + 1) r

/-- The condition at `pc` compares the index of a loop with a constant or with a fixed register. -/
def GuardsIndex (pc : Nat) : Prop :=
  let i := p.fetch pc
  let index := (p.fetch preparationPc).A + 2
  match i.opcode with
  | .eq | .lt | .le =>
      i.A = index ∧ Fixed p preparationPc i.B ∨ i.B = index ∧ Fixed p preparationPc i.A
  | _ => i.A = index

/-- A loop is left by a condition on its index only, if at all. -/
def LeavesByIndex : Prop :=
  ∀ plan, findGuardedBody p preparationPc (preparationPc + (p.fetch preparationPc).Bx + 1) =
    .ok (some plan) → plan.kind.leaves = true → GuardsIndex p preparationPc plan.comparisonPc

end exits

/-- The number of iterations that the bounds of a loop allow. -/
def rangeCount (start limit step : Int) : Nat :=
  if 0 < step ∧ limit < start ∨ step < 0 ∧ start < limit then 0
  else (limit - start).natAbs / step.natAbs + 1

/-- A skipped loop has no iteration. -/
lemma rangeCount_of_skips {start limit step : Word} (hstep : step ≠ 0)
    (hskips : forSkips start limit step = true) :
    rangeCount start.toInt limit.toInt step.toInt = 0 := by
  have hne : step.toInt ≠ 0 := fun h => hstep (BitVec.eq_of_toInt_eq h)
  apply if_pos
  unfold forSkips at hskips
  split_ifs at hskips with hpos
  · exact .inl ⟨hpos, by simpa using hskips⟩
  · exact .inr ⟨by omega, by simpa using hskips⟩

/-- An entered loop has one iteration more than its count. -/
lemma rangeCount_of_enters {start limit step : Word} (hstep : step ≠ 0)
    (hskips : forSkips start limit step = false) :
    rangeCount start.toInt limit.toInt step.toInt = (forCount start limit step).toNat + 1 := by
  rw [LoopHotnessPlan.toNat_forCount hstep hskips]
  apply if_neg
  unfold forSkips at hskips
  split_ifs at hskips with hpos
  all_goals
    have hinside := of_decide_eq_false hskips
    omega

/-! ## The recorded exit -/

/-- The relation that a comparison checks. -/
def OpCode.relation : OpCode → Relation
  | .lt | .ltI => .lessThan
  | .le | .leI => .lessEqual
  | .gtI => .greaterThan
  | .geI => .greaterEqual
  | _ => .equal

/-- A comparison is its relation on signed words. -/
lemma OpCode.compares_iff (opcode : OpCode) (x y : Word) :
    opcode.compares x y = true ↔ opcode.relation.Holds x.toInt y.toInt := by
  cases opcode <;> simp [compares, relation, Relation.Holds, BitVec.toInt_inj]

section analysis

variable {p : Proto} {preparationPc pc : Nat}

/-- A fixed register is not the visible index. -/
lemma Fixed.ne_index {r : Nat} (h : Fixed p preparationPc r) :
    r ≠ (p.fetch preparationPc).A + 2 := by
  have houtside := h.2.2.1
  omega

/-- What `comparedWith` finds in a condition on the index. -/
structure ComparesIndex (p : Proto) (preparationPc pc : Nat) (r : Relation) (threshold : Symbolic)
    (register : Option Nat) : Prop where
  found : comparedWith p (symbolicRegisters p preparationPc) ((p.fetch preparationPc).A + 2) pc =
    some (r, threshold, register)
  known : threshold ≠ .unknown
  resolves : ∀ args : List Word, args.length = p.numparams → ∃ t, threshold.resolve args = some t
  fixed : ∀ q ∈ register, Fixed p preparationPc q ∧
    threshold = (symbolicRegisters p preparationPc).getD q .unknown
  decides : ∀ (s : Vm.State) (args : List Word) (x y index t : Word),
    Vm.operands p s (p.fetch pc) = some (x, y) →
    s.registers ((p.fetch preparationPc).A + 2) = some index → threshold.resolve args = some t →
    (∀ q ∈ register, s.registers q = some t) →
    ((p.fetch pc).opcode.compares x y = true ↔ r.Holds index.toInt t.toInt)

/-- A condition with two registers. -/
lemma comparesIndex_of_registers
    (hcompared : ∀ registers index, comparedWith p registers index pc =
      comparedRegister p registers index (p.fetch pc) (p.fetch pc).opcode.relation)
    (hoperands : ∀ s x y, Vm.operands p s (p.fetch pc) = some (x, y) →
      s.registers (p.fetch pc).A = some x ∧ s.registers (p.fetch pc).B = some y)
    (h : (p.fetch pc).A = (p.fetch preparationPc).A + 2 ∧ Fixed p preparationPc (p.fetch pc).B ∨
      (p.fetch pc).B = (p.fetch preparationPc).A + 2 ∧ Fixed p preparationPc (p.fetch pc).A) :
    ∃ r threshold register, ComparesIndex p preparationPc pc r threshold register := by
  rcases h with ⟨hindex, hfixed⟩ | ⟨hindex, hfixed⟩
  · refine ⟨(p.fetch pc).opcode.relation, _, some (p.fetch pc).B, ?_, hfixed.2.1,
      fun args hargs => resolves_of_known hargs hfixed.2.1, ?_, ?_⟩
    · rw [hcompared, comparedRegister, if_pos ⟨hindex, hfixed.ne_index⟩, if_pos hfixed.1]
    · rintro _ ⟨⟩
      exact ⟨hfixed, rfl⟩
    · intro s args x y index t hxy hs _ ht
      obtain ⟨hx, hy⟩ := hoperands s x y hxy
      rw [hindex, hs] at hx
      rw [ht _ rfl] at hy
      cases hx
      cases hy
      exact OpCode.compares_iff _ x y
  · refine ⟨(p.fetch pc).opcode.relation.reverse, _, some (p.fetch pc).A, ?_, hfixed.2.1,
      fun args hargs => resolves_of_known hargs hfixed.2.1, ?_, ?_⟩
    · rw [hcompared, comparedRegister, if_neg fun hboth => hfixed.ne_index hboth.1,
        if_pos ⟨hindex, hfixed.ne_index⟩, if_pos hfixed.1]
    · rintro _ ⟨⟩
      exact ⟨hfixed, rfl⟩
    · intro s args x y index t hxy hs _ ht
      obtain ⟨hx, hy⟩ := hoperands s x y hxy
      rw [hindex, hs] at hy
      rw [ht _ rfl] at hx
      cases hx
      cases hy
      rw [OpCode.compares_iff, Relation.reverse_holds]

/-- A condition with a constant. -/
lemma comparesIndex_of_constant (value : Word)
    (hindex : (p.fetch pc).A = (p.fetch preparationPc).A + 2)
    (hcompared : comparedWith p (symbolicRegisters p preparationPc)
      ((p.fetch preparationPc).A + 2) pc =
        some ((p.fetch pc).opcode.relation, .constant value, none))
    (hoperands : ∀ s x y, Vm.operands p s (p.fetch pc) = some (x, y) →
      s.registers (p.fetch pc).A = some x ∧ value = y) :
    ∃ r threshold register, ComparesIndex p preparationPc pc r threshold register := by
  refine ⟨_, _, _, hcompared, by simp, fun _ _ => ⟨value, rfl⟩, ?_, ?_⟩
  · rintro _ ⟨⟩
  · intro s args x y index t hxy hs ht _
    obtain ⟨hx, rfl⟩ := hoperands s x y hxy
    rw [hindex, hs] at hx
    cases hx
    cases ht
    exact OpCode.compares_iff _ x _

/-- A guard on the index compares the index with something fixed. -/
lemma comparesIndex_of_guards {values : List Value} (hguards : GuardsIndex p preparationPc pc)
    (hcomparison : isIntegerComparison (p.fetch pc).opcode = true)
    (haccepts : ComparisonAccepted p pc values) :
    ∃ r threshold register, ComparesIndex p preparationPc pc r threshold register := by
  have hconstant := haccepts.2
  unfold GuardsIndex at hguards
  rcases hopcode : (p.fetch pc).opcode
  all_goals simp only [hopcode, isIntegerComparison, Bool.false_eq_true] at hcomparison
  all_goals simp only [hopcode] at hguards hconstant
  case eq | lt | le =>
    refine comparesIndex_of_registers (fun registers index => ?_) (fun s x y hxy => ?_) hguards
    · simp only [comparedWith, hopcode]
      rfl
    · simpa [Vm.operands, hopcode, Option.bind_eq_some_iff] using hxy
  case eqK =>
    obtain ⟨value, hvalue⟩ := Option.isSome_iff_exists.mp hconstant
    refine comparesIndex_of_constant value hguards ?_ fun s x y hxy => ?_
    · simp only [comparedWith, hopcode, if_pos hguards, hvalue]
      rfl
    · simpa [Vm.operands, hopcode, Option.bind_eq_some_iff, hvalue] using hxy
  all_goals
    refine comparesIndex_of_constant (BitVec.ofInt 64 (p.fetch pc).sB) hguards ?_
      fun s x y hxy => ?_
    · simp only [comparedWith, hopcode, if_pos hguards]
      rfl
    · simpa [Vm.operands, hopcode, Option.bind_eq_some_iff] using hxy

/-- Whether the action of a condition is an exit, as the analysis sees it. -/
lemma leaves_iff {loopPc : Nat} {plan : GuardedBodyPlan} (hplan : PlanBounds p loopPc plan) :
    plan.kind.leaves = true ↔
      ((p.fetch (plan.comparisonPc + 2)).opcode = .ret ∨
        (p.fetch (plan.comparisonPc + 2)).opcode = .ret1) ∨
      (p.fetch (plan.comparisonPc + 2)).opcode = .jmp ∧
        jumpAt p (plan.comparisonPc + 2) = loopPc + 1 := by
  have hkind := hplan.kind
  rw [hplan.action] at hkind
  rcases heq : plan.kind
  all_goals simp only [heq] at hkind
  case «break» =>
    exact ⟨fun _ => .inr ⟨hkind.1, hkind.2.1⟩, fun _ => rfl⟩
  case «return» =>
    exact ⟨fun _ => .inl hkind.1.symm, fun _ => rfl⟩
  all_goals
    obtain ⟨hjump, hret1, hret, -⟩ := hkind
    simp [GuardedBodyKind.leaves, hjump, hret1, hret]

section recorded

variable {registers : List Symbolic} {loopPc base : Nat} {plan : GuardedBodyPlan}
  (hplan : PlanBounds p loopPc plan)
include hplan

/-- A planned body keeps inside the loop. -/
lemma inside_of_plan : ¬(loopPc ≤ plan.comparisonPc + 2 ∨
    jumpAt p (plan.comparisonPc + 1) ≤ (plan.comparisonPc + 2 : Nat) ∨
    loopPc < jumpAt p (plan.comparisonPc + 1)) := by
  have haction := hplan.action
  have hinside := hplan.inside
  have halternate := hplan.alternate
  rw [hplan.target]
  omega

/-- A body that stays in the loop gives no early exit. -/
lemma earlyExitAt_of_stays (hstays : plan.kind.leaves = false) :
    earlyExitAt p registers preparationPc loopPc base plan.comparisonPc = none := by
  have hnone := mt (leaves_iff hplan).mpr (by simp [hstays])
  unfold earlyExitAt
  dsimp only
  rw [if_neg (not_not.mpr hplan.jump), if_neg (inside_of_plan hplan), if_pos (not_or.mp hnone)]

/-- An exit by the index is recorded. -/
lemma earlyExitAt_of_compares {r : Relation} {threshold : Symbolic} {register : Option Nat}
    (hloop : loopPc = preparationPc + (p.fetch preparationPc).Bx + 1)
    (hinside : plan.comparisonPc < loopPc) (hleaves : plan.kind.leaves = true)
    (h : ComparesIndex p preparationPc plan.comparisonPc r threshold register) :
    earlyExitAt p (symbolicRegisters p preparationPc) preparationPc loopPc
        (p.fetch preparationPc).A plan.comparisonPc =
      some ⟨if (p.fetch plan.comparisonPc).k then r.complement else r, threshold⟩ := by
  have hexits := (leaves_iff hplan).mp hleaves
  have hunwritten : ¬(register.any fun r => (List.range plan.comparisonPc).any fun q =>
      preparationPc < q && (p.fetch q).opcode.writesDestination && (p.fetch q).A == r) = true := by
    rcases register with - | r
    · simp
    · have hfree := (h.fixed r rfl).1.2.2.2
      rw [Option.any_some, List.any_eq_true]
      rintro ⟨q, hq, hwrites⟩
      simp only [List.mem_range, Bool.and_eq_true, decide_eq_true_eq, beq_iff_eq] at hq hwrites
      exact hfree q hwrites.1.1 (by omega) hwrites.1.2 hwrites.2
  unfold earlyExitAt
  dsimp only
  rw [if_neg (not_not.mpr hplan.jump), if_neg (inside_of_plan hplan),
    if_neg fun hboth => hexits.elim hboth.1 hboth.2, h.found]
  dsimp only
  rw [if_neg h.known, if_neg hunwritten]

end recorded

/-- Without a condition in the body there is no early exit. -/
lemma findEarlyExit_of_none {loopPc : Nat} (h : findGuardedBody p preparationPc loopPc = .ok none) :
    findEarlyExit p preparationPc loopPc = none := by
  unfold findGuardedBody at h
  split at h
  case h_1 hempty =>
    have hnone : (List.range loopPc).find? (fun pc => preparationPc < pc && pc + 1 < loopPc &&
        isIntegerComparison (p.fetch pc).opcode) = none := by
      rw [List.find?_eq_none]
      intro pc hpc hfound
      simp only [Bool.and_eq_true] at hfound
      have hmem : pc ∈ (List.range loopPc).filter fun pc =>
          preparationPc < pc && isIntegerComparison (p.fetch pc).opcode :=
        List.mem_filter.mpr ⟨hpc, Bool.and_eq_true_iff.mpr ⟨hfound.1.1, hfound.2⟩⟩
      rw [hempty] at hmem
      cases hmem
    rw [findEarlyExit, hnone]
    rfl
  case h_2 =>
    obtain ⟨plan, -, h⟩ := bind_eq_ok.mp h
    split at h
    · cases h
    · cases h

/-- The analysis looks at the condition that the translator takes. -/
lemma findEarlyExit_of_some {loopPc : Nat} {plan : GuardedBodyPlan}
    (h : findGuardedBody p preparationPc loopPc = .ok (some plan)) :
    findEarlyExit p preparationPc loopPc =
      earlyExitAt p (symbolicRegisters p preparationPc) preparationPc loopPc
        (p.fetch preparationPc).A plan.comparisonPc := by
  obtain ⟨hbefore, hinside, hcomparison, hplan, honly⟩ := findGuardedBody_spec h plan rfl
  have hbounds := inside_of_plan hplan
  have hpassed : (decide (preparationPc < plan.comparisonPc) &&
      decide (plan.comparisonPc + 1 < loopPc) &&
      isIntegerComparison (p.fetch plan.comparisonPc).opcode) = true := by
    simp only [hcomparison, Bool.and_true, Bool.and_eq_true, decide_eq_true_eq]
    omega
  have hfind : (List.range loopPc).find? (fun pc => preparationPc < pc && pc + 1 < loopPc &&
      isIntegerComparison (p.fetch pc).opcode) = some plan.comparisonPc := by
    apply find?_eq_some_of_only (List.mem_range.mpr hinside) hpassed
    intro pc hrange hfound
    simp only [Bool.and_eq_true, decide_eq_true_eq] at hfound
    exact honly pc (List.mem_range.mp hrange) hfound.1.1 hfound.2
  rw [findEarlyExit, hfind]
  rfl

end analysis

/-! ## Runs -/

namespace Vm

section runs

variable {p : Proto} {l : LoopSite} {guarded : Option GuardedBodyPlan}
  (haccepted : AcceptedLoop p l guarded)
include haccepted

/-- The plan of an accepted loop. -/
lemma analyzeLoopHotness_of_accepted :
    analyzeLoopHotness p =
      { isLoop := true
        start := (analyzeLoopControls p l.preparationPc).start
        limit := (analyzeLoopControls p l.preparationPc).limit
        step := (analyzeLoopControls p l.preparationPc).step
        earlyExit := findEarlyExit p l.preparationPc l.loopPc } := by
  have hpreparation := findPreparation_spec haccepted.preparation
  obtain ⟨hloop, hlatch, -⟩ := haccepted.latch
  obtain ⟨hstack, -⟩ := haccepted.state
  obtain ⟨hstart, hstep, hzero⟩ := haccepted.known
  have hbehind := haccepted.loop
  have hinside : l.preparationPc < p.sizecode := by omega
  have hfind : (List.range p.sizecode).find? (fun pc => (p.fetch pc).opcode == .forPrep) =
      some l.preparationPc := by
    apply find?_eq_some_of_only (List.mem_range.mpr hinside)
    · exact beq_iff_eq.mpr ((hpreparation _ hinside).mpr rfl)
    · intro pc hrange hfound
      exact (hpreparation pc (List.mem_range.mp hrange)).mp (beq_iff_eq.mp hfound)
  unfold analyzeLoopHotness
  rw [if_neg (by omega), hfind]
  dsimp only
  rw [haccepted.base, if_neg (by omega), ← hbehind, if_neg]
  simp only [not_or, not_le, ne_eq, not_not]
  exact ⟨hstart, hstep, hzero, hloop, hlatch⟩

/-- A loop that nothing leaves begins all its iterations. -/
lemma stopsAt_of_passes {s : State} {count start step v : Word} {n : Nat} {args : List Word}
    (hnone : findEarlyExit p l.preparationPc l.loopPc = none)
    (hbody : ∀ s, s.pc = l.preparationPc + 1 → CarriedDefined l s.registers →
      (∃ q, Iterates p s (.divisionByZero q) 0) ∨ Passes p l s l.loopPc)
    (hs : AtBody l s count step start) (hruns : Iterates p s (.returned v) n) :
    StopsAt (LoopHotnessPlan.Exits (findEarlyExit p l.preparationPc l.loopPc) args start step)
      (count.toNat + 1) (n + 1) := by
  have hstops := stopsAt_of_iterates haccepted (J := fun _ => True) (E := fun _ => False)
    (fun _ _ _ h => h)
    (fun s _ _ hs _ => (hbody s hs.pc hs.carried).imp_right fun h => .inr ⟨id, h⟩) hs trivial hruns
  apply hstops.congr
  intro k _
  rw [hnone]
  constructor
  · exact False.elim
  · rintro ⟨exit, hexit, -⟩
    cases hexit

/-- The recorded exit decides whether an iteration leaves the loop. -/
lemma leaves_of_compares {plan : GuardedBodyPlan} (hguarded : guarded = some plan)
    (hleaves : plan.kind.leaves = true) {r : Relation} {threshold : Symbolic}
    {register : Option Nat}
    (hcompares : ComparesIndex p l.preparationPc plan.comparisonPc r threshold register)
    {args : List Word} {t : Word} (ht : threshold.resolve args = some t) {s : State}
    {count step index : Word} (hs : AtBody l s count step index)
    (hthreshold : ∀ q ∈ register, s.registers q = some t) :
    (∃ q, Iterates p s (.divisionByZero q) 0) ∨
      ((if (p.fetch plan.comparisonPc).k then r.complement else r).Holds index.toInt t.toInt ∧
        Finishes p s) ∨
      ¬(if (p.fetch plan.comparisonPc).k then r.complement else r).Holds index.toInt t.toInt ∧
        Passes p l s l.loopPc := by
  rcases run_condition haccepted hguarded hs.pc hs.carried with
    hdivision | ⟨s₁, x, y, hleads, hkeeps, hxy, hnext⟩
  · exact .inl hdivision
  · have hindex : s₁.registers (l.stateBase + 2) = some index := by
      rw [hkeeps.state _ (by omega) le_rfl, hs.index]
    have hthreshold' : ∀ q ∈ register, s₁.registers q = some t := by
      intro q hq
      have hfree := (hcompares.fixed q hq).1.2.2.2
      rw [← haccepted.loop] at hfree
      rw [hkeeps.unwritten q hfree, hthreshold q hq]
    have hdecides := hcompares.decides s₁ args x y index t hxy
      (by rw [haccepted.base, hindex]) ht hthreshold'
    have htakes : TakesAction p plan.comparisonPc x y ↔
        (if (p.fetch plan.comparisonPc).k then r.complement else r).Holds index.toInt t.toInt := by
      rcases hk : (p.fetch plan.comparisonPc).k
      · simp [TakesAction, hk, hdecides]
      · simp [TakesAction, hk, Relation.complement_holds, ← hdecides]
    rw [← htakes]
    by_cases htaken : TakesAction p plan.comparisonPc x y
    · rw [if_pos ⟨hleaves, htaken⟩] at hnext
      exact .inr (.inl ⟨htaken, .of_leads hleads hnext⟩)
    · rw [if_neg fun h => htaken h.2] at hnext
      exact .inr (.inr ⟨htaken, .of_leads hleads hkeeps hnext⟩)

/-- A loop that is left by its index only stops at the iteration where its exit holds. -/
lemma stopsAt_exits (hleaves : LeavesByIndex p l.preparationPc) {args : List Word}
    (hargs : args.length = p.numparams) {prepared s : State} {start limit step v : Word} {n : Nat}
    (hknown : Known (symbolicRegisters p l.preparationPc) args prepared.registers)
    (hsame : SameOutside p l prepared.registers s.registers) (hstep : step ≠ 0)
    (hskips : forSkips start limit step = false)
    (hs : AtBody l s (forCount start limit step) step start)
    (hruns : Iterates p s (.returned v) n) :
    StopsAt (LoopHotnessPlan.Exits (findEarlyExit p l.preparationPc l.loopPc) args start step)
      ((forCount start limit step).toNat + 1) (n + 1) := by
  have hguard := haccepted.guard
  rcases hguarded : guarded with - | plan
  · rw [hguarded] at hguard
    exact stopsAt_of_passes haccepted (findEarlyExit_of_none hguard)
      (fun s hpc hcarried => .inr (passes_body haccepted hguarded hpc hcarried)) hs hruns
  · rw [hguarded] at hguard
    obtain ⟨-, hinside, hcomparison, hplan, -⟩ := findGuardedBody_spec hguard plan rfl
    rcases hkind : plan.kind.leaves
    · apply stopsAt_of_passes haccepted _ _ hs hruns
      · rw [findEarlyExit_of_some hguard, earlyExitAt_of_stays hplan hkind]
      · intro s hpc hcarried
        apply (run_condition haccepted hguarded hpc hcarried).imp_right
        rintro ⟨s₁, x, y, hleads, hkeeps, -, hnext⟩
        rw [if_neg (by simp [hkind])] at hnext
        exact .of_leads hleads hkeeps hnext
    · have hguards := hleaves plan (by rwa [← haccepted.loop]) hkind
      have hbody := haccepted.body
      rw [hguarded] at hbody
      obtain ⟨values, values', -, -, hoperands⟩ := hbody.before
      obtain ⟨r, threshold, register, hcompares⟩ :=
        comparesIndex_of_guards hguards hcomparison hoperands
      obtain ⟨t, ht⟩ := hcompares.resolves args hargs
      have hthreshold : ∀ q ∈ register, s.registers q = some t := by
        intro q hq
        obtain ⟨hfixed, hsymbol⟩ := hcompares.fixed q hq
        obtain ⟨-, -, houtside, hfree⟩ := hfixed
        rw [haccepted.base] at houtside
        rw [← haccepted.loop] at hfree
        rw [hsame q houtside hfree]
        rw [hsymbol] at ht
        exact hknown q t ht
      have hstops := stopsAt_of_iterates haccepted
        (J := fun registers => ∀ q ∈ register, registers q = some t)
        (fun before after hsame' hbefore q hq => by
          obtain ⟨-, -, houtside, hfree⟩ := (hcompares.fixed q hq).1
          rw [haccepted.base] at houtside
          rw [← haccepted.loop] at hfree
          rw [hsame' q houtside hfree, hbefore q hq])
        (fun s count index hs hJ => leaves_of_compares haccepted hguarded hkind hcompares ht hs hJ)
        hs hthreshold hruns
      apply hstops.congr
      intro k hk
      rw [LoopHotnessPlan.toInt_index hstep hskips (Nat.lt_succ_iff.mp hk),
        findEarlyExit_of_some hguard,
        earlyExitAt_of_compares hplan haccepted.loop hinside hkind hcompares]
      constructor
      · exact fun hholds => ⟨_, rfl, t, ht, hholds⟩
      · rintro ⟨exit, hexit, t', ht', hholds⟩
        cases hexit
        rw [ht] at ht'
        cases ht'
        exact hholds

/-- A call without a division by zero comes to the loop. -/
lemma iterates_of_setup {args : List Word} (hargs : args.length = p.numparams) {v : Word} {n : Nat}
    (hruns : Iterates p (start args) (.returned v) n) :
    ∃ s, s.pc = l.preparationPc ∧ CarriedDefined l s.registers ∧
      Known (symbolicRegisters p l.preparationPc) args s.registers ∧
      Iterates p s (.returned v) n := by
  rcases run_setup haccepted hargs with ⟨s, hleads, hpc, hdefined, hknown⟩ | ⟨q, hdivision⟩
  · exact ⟨s, hpc, fun r hr => hdefined r (haccepted.carried r hr), hknown,
      hleads.iterates.mp hruns⟩
  · cases (hruns.unique hdivision).1

end runs

end Vm

/-- The estimate of loop iterations is exact up to `2 ^ 64 - 1` for a loop that is left by its index
only, if at all. If the plan has no early exit, it is what the bounds of the loop allow, and no call
begins more iterations. -/
theorem estimate_exact {p : Proto} {helper : Word} {optimized : Bool} {f : ControlFlowFunction}
    {preparationPc : Nat} {args : List Word} {start limit step v : Word} {n : Nat}
    (hcompiled : compileNumericForPrototype p helper optimized = .ok f)
    (hpreparation : findPreparation p = .ok preparationPc) (hargs : args.length = p.numparams)
    (hstart : (analyzeLoopHotness p).start.resolve args = some start)
    (hlimit : (analyzeLoopHotness p).limit.resolve args = some limit)
    (hstep : (analyzeLoopHotness p).step.resolve args = some step) (hnonzero : step ≠ 0)
    (hruns : Vm.Iterates p (Vm.start args) (.returned v) n) :
    (LeavesByIndex p preparationPc →
        ((analyzeLoopHotness p).estimate args).toNat = min n (2 ^ 64 - 1)) ∧
      ((analyzeLoopHotness p).earlyExit = none →
        ((analyzeLoopHotness p).estimate args).toNat =
            min (rangeCount start.toInt limit.toInt step.toInt) (2 ^ 64 - 1) ∧
          n ≤ rangeCount start.toInt limit.toInt step.toInt) := by
  obtain ⟨l, guarded, haccepted⟩ := acceptedLoop_of_compile hcompiled
  obtain rfl : l.preparationPc = preparationPc := by
    have heq := haccepted.preparation.symm.trans hpreparation
    cases heq
    rfl
  have hplan := Vm.analyzeLoopHotness_of_accepted haccepted
  obtain ⟨s, hpc, hcarried, hknown, hruns⟩ := Vm.iterates_of_setup haccepted hargs hruns
  have hestimate := LoopHotnessPlan.estimate_eq (by rw [hplan]) hstart hlimit hstep hnonzero
  rw [hplan] at hstart hlimit hstep
  dsimp only [analyzeLoopControls] at hstart hlimit hstep
  rw [haccepted.base] at hstart hlimit hstep
  have hprepared := Vm.iterates_of_prepared haccepted hpc (hknown _ _ hstart) (hknown _ _ hlimit)
    (hknown _ _ hstep) hcarried hruns
  have hearlyExit : (analyzeLoopHotness p).earlyExit =
      findEarlyExit p l.preparationPc l.loopPc := by rw [hplan]
  rcases hestimate with ⟨hskips, hestimate⟩ | ⟨hskips, distance, stride, hstride, hcount, hestimate⟩
  · obtain rfl : n = 0 := by
      rcases hprepared with ⟨hzero, -⟩ | ⟨-, -, -, hn⟩ | ⟨-, henters, -⟩
      · exact absurd hzero hnonzero
      · exact hn
      · rw [hskips] at henters
        cases henters
    rw [hestimate, rangeCount_of_skips hnonzero hskips]
    exact ⟨fun _ => rfl, fun _ => ⟨rfl, le_rfl⟩⟩
  · obtain ⟨s', m, hs', hsame, hrest, rfl⟩ : ∃ s' m,
        Vm.AtBody l s' (forCount start limit step) step start ∧
        Vm.SameOutside p l s.registers s'.registers ∧ Vm.Iterates p s' (.returned v) m ∧
        n = m + 1 := by
      rcases hprepared with ⟨hzero, -⟩ | ⟨-, hskips', -⟩ | ⟨-, -, henters⟩
      · exact absurd hzero hnonzero
      · rw [hskips] at hskips'
        cases hskips'
      · exact henters
    have hexact : ∀ n', StopsAt (LoopHotnessPlan.Exits (analyzeLoopHotness p).earlyExit args start
        step) ((forCount start limit step).toNat + 1) n' →
        ((analyzeLoopHotness p).estimate args).toNat = min n' (2 ^ 64 - 1) := by
      intro n' hstops
      rw [hestimate]
      apply LoopHotnessPlan.toNat_estimateEntered hnonzero hstride
      rwa [hcount]
    constructor
    · intro hleaves
      apply hexact
      rw [hearlyExit]
      exact Vm.stopsAt_exits haccepted hleaves hargs hknown hsame hnonzero hskips hs' hrest
    · intro hnone
      rw [rangeCount_of_enters hnonzero hskips]
      constructor
      · apply hexact
        rw [hnone]
        refine .inr ⟨fun k _ => ?_, rfl⟩
        rintro ⟨exit, hexit, -⟩
        cases hexit
      · exact Nat.succ_le_succ (Vm.le_of_iterates haccepted hs' hrest).1

/-- `for i = 1, 10 do if c then break end end return a`, with a condition for `c`. -/
def breakWhen (condition : Instruction) : Proto where
  numparams := 1
  maxstacksize := 5
  code :=
    [{ opcode := .loadI, A := 1, sBx := 1 },
     { opcode := .loadI, A := 2, sBx := 10 },
     { opcode := .loadI, A := 3, sBx := 1 },
     { opcode := .forPrep, A := 1, Bx := 3 },
     condition,
     { opcode := .jmp, sJ := 1 },
     { opcode := .jmp, sJ := 1 },
     { opcode := .forLoop, A := 1, Bx := 4 },
     { opcode := .ret1, A := 0 }]

/-- `i == a`. -/
def indexIsParameter : Instruction := { opcode := .eq, A := 3, B := 0 }

/-- `a == 0`. -/
def parameterIsZero : Instruction := { opcode := .eqI, A := 0, sB := 0 }

/-- A success has a value. -/
lemma exists_ok_of_toBool {ε α : Type} {x : Except ε α} (h : x.toBool = true) :
    ∃ a, x = .ok a := by
  rcases x with _ | a
  · cases h
  · exact ⟨a, rfl⟩

/-- The sample loop leaves by its index. -/
lemma indexIsParameter_leaves : LeavesByIndex (breakWhen indexIsParameter) 3 := by
  intro plan hguard _
  have hplan : plan = ⟨4, 6, 7, 7, 7, .break⟩ :=
    Option.some.inj (Except.ok.inj (hguard.symm.trans rfl))
  rw [hplan]
  exact .inl ⟨rfl, by decide, by decide, .inl (by decide), by decide⟩

/-- The estimate of the sample loop is the iterations it begins. -/
theorem estimate_exact_indexIsParameter :
    ((analyzeLoopHotness (breakWhen indexIsParameter)).estimate [4]).toNat = min 4 (2 ^ 64 - 1) := by
  obtain ⟨f, hf⟩ : ∃ f, compileNumericForPrototype (breakWhen indexIsParameter) 0 false = .ok f :=
    exists_ok_of_toBool (by decide +kernel)
  have hruns : Vm.Iterates (breakWhen indexIsParameter) (Vm.start [4]) (.returned 4) 4 :=
    ⟨16, by decide +kernel⟩
  exact (estimate_exact hf rfl rfl rfl rfl rfl (by decide) hruns).1 indexIsParameter_leaves

/-- A condition on a parameter is not part of the plan: the loop is left in its first iteration, and
the estimate is 10. -/
theorem not_estimate_exact_parameterIsZero :
    ¬∀ (p : Proto) (helper : Word) (optimized : Bool) (f : ControlFlowFunction) (args : List Word)
      (start limit step v : Word) (n : Nat), compileNumericForPrototype p helper optimized = .ok f →
      args.length = p.numparams → (analyzeLoopHotness p).start.resolve args = some start →
      (analyzeLoopHotness p).limit.resolve args = some limit →
      (analyzeLoopHotness p).step.resolve args = some step → step ≠ 0 →
      Vm.Iterates p (Vm.start args) (.returned v) n →
      ((analyzeLoopHotness p).estimate args).toNat = min n (2 ^ 64 - 1) := by
  intro hclaim
  obtain ⟨f, hf⟩ : ∃ f, compileNumericForPrototype (breakWhen parameterIsZero) 0 false = .ok f :=
    exists_ok_of_toBool (by decide +kernel)
  have hruns : Vm.Iterates (breakWhen parameterIsZero) (Vm.start [0]) (.returned 0) 1 :=
    ⟨8, by decide +kernel⟩
  have hten : ((analyzeLoopHotness (breakWhen parameterIsZero)).estimate [0]).toNat = 10 := by
    decide +kernel
  have hestimate := hclaim _ _ _ f [0] 1 10 1 0 1 hf rfl rfl rfl rfl (by decide) hruns
  rw [hten] at hestimate
  exact absurd hestimate (by decide)

end UniJit.Lua
