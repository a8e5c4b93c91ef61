import UniJit.Lua.EmittedGuards
import UniJit.Lua.GuardedLoops
import UniJit.Lua.IndexedLoops

/-!
# Translations of loops preserve meaning

The graph of a prototype with a loop, run with the arguments of a call and enough budget, returns
what the Lua machine returns, or leaves at the guard of the division at which the machine stops
(`interpret_of_compileNumericFor`). The code before the loop is followed to `OP_FORPREP`, where the
values that the loop is entered with are fixed; from there the three shapes of a loop run as the
machine does (`closing_emitLoop`).
-/

namespace UniJit.Lua

open UniJit.Ir UniJit.Lib UniJit.Runtime LawfulScalarBuilder ControlFlowBuilder

/-! ## The three shapes -/

/-- The builder keeps what was there as a part. -/
lemma kept_partOf (sites : Nat → Prop) (g : ControlFlowFunction) :
    ControlFlowBuilder.Kept sites fun b => g.PartOf b.function where
  appendNode _ _ _ _ h := h.trans partOf_appendNode
  createBlock b types h := h.trans (partOf_createBlock b types)
  setTerminator _ _ _ _ hset h := h.trans (ControlFlowFunction.partOf_setTerminator hset)
  setInsertionBlock _ _ h := h

section loop

variable {f : ControlFlowFunction} {host : Host} {p : Proto} {l : LoopSite} {a : Arrival}
  {e e' : Emitter ControlFlowBuilder} {guarded : Option GuardedBodyPlan} {helper : Word}
  {optimized : Bool} {step : Symbolic}

/-- Emitting a loop leaves what was there in place. -/
lemma partOf_emitLoop (h : emitLoop p l helper optimized guarded step e = .ok () e') :
    e.builder.function.PartOf e'.builder.function := by
  have hkept := kept_partOf p.DividesAt e.builder.function
  have hbuilds : Builds (fun b => e.builder.function.PartOf b.function)
      (emitLoop p l helper optimized guarded step) := by
    unfold emitLoop
    split
    · exact builds_emitGuardedLoop hkept _ _ _ _
    · exact builds_emitConstantStepLoop hkept _ _
    · exact builds_emitParameterStepLoop hkept _ _
  exact hbuilds e () e' (.refl _) h

/-- The visible index, and the limit where it is compared, are carried when they have a value. -/
lemma mem_carriedRegisters {preparationPc loopPc stateBase r : Nat} {comparesLimit : Bool}
    {registers : List Value} (hvalid : (registers.getD r .invalid).valid)
    (hr : comparesLimit = true ∧ r = stateBase + 1 ∨ r = stateBase + 2) :
    r ∈ carriedRegisters p preparationPc loopPc stateBase comparesLimit registers := by
  have hlt : r < registers.length := by
    by_contra hge
    rw [List.getD, List.getElem?_eq_none (not_lt.mp hge)] at hvalid
    exact not_valid_invalid hvalid
  simp only [carriedRegisters, List.mem_filter, List.mem_range, Bool.and_eq_true, Bool.or_eq_true,
    decide_eq_true_eq, beq_iff_eq]
  exact ⟨hlt, hvalid, hr.imp_left .inr⟩

/-- A loop runs as the machine does. -/
lemma closing_emitLoop (howned : f.Owned) (haccepted : AcceptedLoop p l guarded)
    (harrives : Arrives f l a) (hreserves : p.Reserves l.preparationPc l.loopPc l.stateBase)
    (hcarried : l.carried = carriedRegisters p l.preparationPc l.loopPc l.stateBase
      (step.constant?.isSome && guarded.isNone) l.registers)
    (hstep : ∀ value, step = .constant value → a.step = value) (hne : a.step ≠ 0)
    (hbound : a.bound ≤ e.builder.function.nodes.length)
    (hinsertion : e.builder.function.validBlock e.builder.insertionBlock)
    (hquiet : ∀ n, host.exitPollRequested n = false)
    (hhelper : ∀ arguments, host.helper helper arguments = luaIntegerForRemaining arguments)
    (h : emitLoop p l helper optimized guarded step e = .ok () e') :
    f.Closing e.builder e'.builder (RunsLoop f host p l a e.builder) := by
  have hindex : l.stateBase + 2 ∈ l.carried := by
    rw [hcarried]
    exact mem_carriedRegisters haccepted.controls.2.2.2 (.inr rfl)
  rcases guarded with - | plan
  · rcases step with - | value | index
    · exact closing_emitParameterStepLoop howned hbound haccepted harrives hreserves hindex hinsertion
        hquiet hhelper h
    · have hlimit : l.stateBase + 1 ∈ l.carried := by
        rw [hcarried]
        exact mem_carriedRegisters haccepted.controls.2.1.2 (.inl ⟨rfl, rfl⟩)
      exact closing_emitConstantStepLoop howned haccepted harrives hreserves (hstep value rfl) hne
        hindex hlimit hbound hinsertion hquiet h
    · exact closing_emitParameterStepLoop howned hbound haccepted harrives hreserves hindex hinsertion
        hquiet hhelper h
  · exact closing_emitGuardedLoop howned haccepted harrives hreserves hstep hbound hinsertion hquiet
      hhelper h

end loop

/-! ## Prototypes -/

section prototypes

variable {host : Host} {p : Proto} {args : List Word} {f : ControlFlowFunction}

/-- The arguments in the machine are the parameters of the graph. -/
lemma holdsWords_parameters (hbyte : p.numparams < 256) (hargs : args.length = p.numparams)
    (hpart : (ControlFlowBuilder.create (List.replicate p.numparams .word)).function.PartOf f) :
    HoldsWords (fun _ => True) (parameterRegisters p
        (ControlFlowBuilder.create (List.replicate p.numparams .word)).parameter)
      (Vm.start args).registers
      (size (ControlFlowBuilder.create (List.replicate p.numparams .word)))
      (f.assignArguments args (Values.zero f.nodes.length)) := by
  intro r _ hvalid
  have hr := parameterRegisters_spec hvalid
  have hstack : r < p.maxstacksize := by
    by_contra hstack
    rw [parameterRegisters, List.getD, List.getElem?_eq_none (by simpa using hstack)] at hvalid
    exact not_valid_invalid hvalid
  have hlarge : 256 < kInvalidIndex.toNat := by decide
  have hindex : (Value.ofIndex r).index = r := Value.index_ofIndex (by omega)
  have hget : (parameterRegisters p (ControlFlowBuilder.create
      (List.replicate p.numparams .word)).parameter).getD r .invalid = .ofIndex r := by
    simp [parameterRegisters, List.getD, List.getElem?_map, List.getElem?_range hstack, hr,
      ControlFlowFunction.parameter_create hbyte hr]
  obtain ⟨-, hwords⟩ := ControlFlowFunction.assignArguments_spec hbyte args hpart
    (Values.zero f.nodes.length) (by simp [Values.zero])
  rw [hget, hwords r hr, hindex]
  refine ⟨?_, ?_⟩
  · show r < (ControlFlowBuilder.create _).function.nodes.length
    rwa [ControlFlowFunction.length_nodes_create hbyte]
  · simp [Vm.start, List.getD, hargs ▸ hr]

/-- A run and the machine that have come to the loop with the values of the translation. -/
lemma atLoop_of_holds {l : LoopSite} {guarded : Option GuardedBodyPlan} {registers : Registers}
    {s : Values} {bound : Nat} (haccepted : AcceptedLoop p l guarded)
    (hlength : s.words.length = f.nodes.length)
    (hholds : HoldsWords (fun _ => True) l.registers registers bound s)
    (hstep : Vm.step p ⟨l.preparationPc, registers⟩ ≠ some (.done .stepIsZero)) :
    Arrives f l ⟨bound, s, s.word l.start, s.word l.limit, s.word l.step⟩ ∧
      AtLoop l ⟨bound, s, s.word l.start, s.word l.limit, s.word l.step⟩ registers := by
  obtain ⟨⟨-, hstart⟩, ⟨-, hlimit⟩, -, hstride⟩ := haccepted.controls
  obtain ⟨hstartLt, hstartWord⟩ := hholds l.stateBase trivial hstart
  obtain ⟨hlimitLt, hlimitWord⟩ := hholds (l.stateBase + 1) trivial hlimit
  obtain ⟨hstrideLt, hstrideWord⟩ := hholds (l.stateBase + 2) trivial hstride
  refine ⟨⟨hlength, ⟨hstartLt, rfl⟩, ⟨hlimitLt, rfl⟩, ⟨hstrideLt, rfl⟩, hstart, hlimit, hstride⟩,
    ?_, hstartWord, hlimitWord, hstrideWord, fun hzero => hstep ?_⟩
  · refine hholds.mono (fun _ _ => trivial) (fun r _ => ?_) (.refl _ s) le_rfl
    by_cases hr : r = l.stateBase + 1
    · rw [hr, LoopSite.view, Function.update_self, hlimitWord]
      rfl
    · rw [LoopSite.view, Function.update_of_ne hr]
  · have hinside : l.preparationPc < p.sizecode := by
      have hlatch := haccepted.latch.1
      have hloop := haccepted.loop
      omega
    have hopcode := (findPreparation_spec haccepted.preparation _ hinside).mpr rfl
    have hprepares : Vm.step p ⟨l.preparationPc, registers⟩ =
        Vm.forPrep ⟨l.preparationPc, registers⟩ (p.fetch l.preparationPc) := by
      simp only [Vm.step, hopcode]
    rw [hprepares, Vm.forPrep, haccepted.base]
    dsimp only
    rw [hstartWord, hlimitWord, hstrideWord]
    exact if_pos hzero

namespace Vm

/-- A call ends in one way. -/
lemma Ends.unique {s : State} {o o' : Outcome} (h : Ends p s o) (h' : Ends p s o') : o = o' := by
  obtain ⟨fuel, hrun⟩ := h
  obtain ⟨fuel', hrun'⟩ := h'
  induction fuel generalizing s fuel' with
  | zero => cases hrun
  | succ fuel ih =>
      rcases fuel' with - | fuel'
      · cases hrun'
      rw [run] at hrun hrun'
      split at hrun
      case h_1 s' hstep =>
        rw [hstep] at hrun'
        exact ih hrun fuel' hrun'
      case h_2 hstep =>
        rw [hstep] at hrun'
        exact Option.some.inj (hrun.symm.trans hrun')
      case h_3 => cases hrun

end Vm

/-- The graph of a prototype with a loop ends as the machine does, unless the machine stops at the
loop. -/
lemma agrees_of_compileNumericFor {helper : Word} {optimized : Bool}
    (hcompile : compileNumericForPrototype p helper optimized = .ok f) (hverify : f.verify = .ok ())
    (hstock : p.Stock) (hbyte : p.numparams < 256) (hargs : args.length = p.numparams)
    (hhelper : ∀ arguments, host.helper helper arguments = luaIntegerForRemaining arguments)
    (hquiet : ∀ n, host.exitPollRequested n = false)
    (hstep : ∀ pc registers, findPreparation p = .ok pc →
      Vm.Reaches p (Vm.start args) ⟨pc, registers⟩ →
      Vm.Known (symbolicRegisters p pc) args registers →
      Vm.step p ⟨pc, registers⟩ ≠ some (.done .stepIsZero)) (m : Machine) :
    ∃ enough, ∀ budget, enough ≤ budget →
      Agrees p (Vm.start args) (f.interpret host args budget m) := by
  obtain ⟨l, guarded, e, e', haccepted, hemitted, rfl⟩ := emittedLoop_of_compile hcompile
  have howned := ControlFlowFunction.verify_owned hverify
  have hinside : l.preparationPc < p.sizecode := by
    have hlatch := haccepted.latch.1
    have hloop := haccepted.loop
    omega
  have hreserves : p.Reserves l.preparationPc l.loopPc l.stateBase := by
    have hreserves := hstock l.preparationPc hinside
      ((findPreparation_spec haccepted.preparation _ hinside).mpr rfl)
    rwa [haccepted.base, ← haccepted.loop] at hreserves
  have hfollows := (follows_range (e'.builder.build.code host) (fun _ => False)
    (Scope.all p 0 l.preparationPc) hinside.le (fun _ => False.elim) le_rfl (Nat.zero_le _)
    (by omega) hemitted.setup).resolve_right (fun h => Bool.false_ne_true h.1)
  obtain ⟨-, hfollows⟩ := hfollows
  have hpart := partOf_emitLoop hemitted.loop
  have hin := inBlock_of_grows hfollows.grows
  have hcreate := hin.part.trans hpart
  have hinsertion : e.builder.function.validBlock e.builder.insertionBlock := by
    have hentry : (Block.ofIndex 0).valid := by decide
    rw [hin.insertionBlock]
    exact hin.part.validBlock ⟨hentry, Nat.one_pos⟩
  refine ControlFlowFunction.interpret_of_yields hverify hcreate hargs (fun m => ?_) m
  obtain ⟨hlength, -⟩ := ControlFlowFunction.assignArguments_spec hbyte args hcreate
    (Values.zero e'.builder.build.nodes.length) List.length_replicate
  refine hfollows.runs hpart _ m _ hlength (holdsWords_parameters hbyte hargs hcreate)
    fun s registers hrow hkeeps _ hholds => ?_
  have hknown := Vm.Known.row hrow (Vm.known_start p args)
  have hzero := hstep l.preparationPc registers haccepted.preparation hrow.reaches hknown
  obtain ⟨harrives, hat⟩ := atLoop_of_holds haccepted (hkeeps.length.trans hlength) hholds hzero
  have hconstant : ∀ value, (analyzeLoopControls p l.preparationPc).step = .constant value →
      s.word l.step = value := by
    intro value hvalue
    have hregister : registers (l.stateBase + 2) = some value := by
      apply hknown
      show ((symbolicRegisters p l.preparationPc).getD (l.stateBase + 2) .unknown).resolve args = _
      have hcontrol : (symbolicRegisters p l.preparationPc).getD (l.stateBase + 2) .unknown =
          .constant value := by
        rw [← haccepted.base]
        exact hvalue
      rw [hcontrol]
      rfl
    exact Option.some.inj (hat.step.symm.trans hregister)
  have hloop := closing_emitLoop howned haccepted harrives hreserves hemitted.carried hconstant
    hat.step_ne le_rfl hinsertion hquiet hhelper hemitted.loop
  exact hloop.holds (hin.tidy (tidy_create _)) (.refl _) s m registers hat (.refl _ s)

/-- **Loops.** The graph of a prototype with a loop ends as the machine does, unless the step of the
loop is zero. -/
theorem interpret_of_compileNumericFor {helper : Word} {optimized : Bool}
    (hcompile : compileNumericForPrototype p helper optimized = .ok f) (hverify : f.verify = .ok ())
    (hstock : p.Stock) (hbyte : p.numparams < 256) (hargs : args.length = p.numparams)
    (hhelper : ∀ arguments, host.helper helper arguments = luaIntegerForRemaining arguments)
    (hquiet : ∀ n, host.exitPollRequested n = false)
    (hstep : ¬Vm.Ends p (Vm.start args) .stepIsZero) (m : Machine) :
    ∃ enough, ∀ budget, enough ≤ budget →
      Agrees p (Vm.start args) (f.interpret host args budget m) := by
  refine agrees_of_compileNumericFor hcompile hverify hstock hbyte hargs hhelper hquiet ?_ m
  intro pc registers _ hreaches _ hdone
  exact hstep (Vm.ends_of_reaches hreaches (.done hdone))

/-- A host with the helper that counts the iterations. -/
def countingHost : Host := { sampleHost with helper := fun _ => luaIntegerForRemaining }

/-- The graph of a loop whose body divides agrees with the machine on 100 iterations. -/
theorem interpret_dividingLoop :
    ∃ f, compileNumericForPrototype dividingLoop 0 true = .ok f ∧
      ∃ enough, ∀ budget, enough ≤ budget →
        Agrees dividingLoop (Vm.start [100]) (f.interpret countingHost [100] budget {}) := by
  have hverify : (compileNumericForPrototype dividingLoop 0 true >>= fun f => f.verify) =
      .ok () := by
    decide +kernel
  obtain ⟨f, hcompile, hverify⟩ := bind_eq_ok.mp hverify
  have hreturns : Vm.Ends dividingLoop (Vm.start [100]) (.returned 0) := ⟨60, by decide +kernel⟩
  have hstep : ¬Vm.Ends dividingLoop (Vm.start [100]) .stepIsZero := by
    intro hzero
    cases hreturns.unique hzero
  exact ⟨f, hcompile, interpret_of_compileNumericFor hcompile hverify (by decide) (by decide) rfl
    (fun _ => rfl) (fun _ => rfl) hstep {}⟩

end prototypes

end UniJit.Lua
