import UniJit.Lua.CompiledCalls
import UniJit.Lua.ZeroSteps

/-!
# Calls of compiled Float64 code

The analysis of the code before a loop is the same for both modes, and it knows of integers only.
In a Float64 loop a step that it knows is a parameter, and then its argument is a float, or a
constant, and then the machine holds an integer (`NumberVm.Known`). `hasZeroFloatStep` takes both for
the bits of a `double`. What it finds is reported before any code runs; a step that is computed is
tested by the code, whose exit is reported as a zero step when there is a snapshot of the prototype.
So a call reports a zero step exactly if the machine stops for it and one of the two is the case, or
the step is the constant whose bits are those of `-0.0` (`invoke_eq_stepIsZero_iff`). A call of code
without a loop gives the float that the machine returns (`floatAnswers_of_compile`).
-/

namespace UniJit.Lua

open UniJit.Ir UniJit.Lib UniJit.Runtime

/-! ## What is known of numbers -/

/-- The number of an operand for arguments that are floats. -/
def Symbolic.number (args : List Word) : Symbolic → Option Number
  | .unknown => none
  | .constant value => some (.integer value)
  | .parameter index => (args[index]?).map .float

/-- The symbol of a known constant stands for that integer only. -/
lemma Symbolic.number_ofConstant {o : Option Word} {args : List Word} {n : Number}
    (h : (Symbolic.ofConstant o).number args = some n) :
    ∃ value, o = some value ∧ n = .integer value := by
  rcases o with - | value
  · cases h
  · cases h
    exact ⟨value, rfl, rfl⟩

/-- A constant symbol stands for its integer. -/
lemma Symbolic.number_of_constant? {symbol : Symbolic} {value : Word}
    (h : symbol.constant? = some value) (args : List Word) :
    symbol.number args = some (.integer value) := by
  cases symbol with
  | unknown => cases h
  | constant value => cases h; rfl
  | parameter index => cases h

/-- An integer constant of the prototype is that number. -/
lemma Proto.number_of_integerConstant {p : Proto} {index : Nat} {value : Word}
    (h : p.integerConstant index = some value) : p.number index = some (.integer value) := by
  unfold Proto.integerConstant at h
  split at h
  case h_1 hvalue =>
    cases h
    simp only [Proto.number, hvalue]
  case h_2 => cases h

namespace NumberVm

/-- Each register holds what is known of it. -/
def Known (symbols : List Symbolic) (args : List Word) (registers : Registers) : Prop :=
  ∀ r n, (symbols.getD r .unknown).number args = some n → registers r = some n

variable {float : FloatUnit} {ofInteger : Word → Word} {p : Proto} {args : List Word} {s s' : State}
  {symbols : List Symbolic} {n : Number}

/-- At the start the symbols stand for the registers. -/
lemma known_start (p : Proto) (args : List Word) :
    Known (symbolicRegisters p 0) args (start args).registers := by
  intro r n hn
  rw [symbolicRegisters, List.getD, List.getElem?_map] at hn
  by_cases hr : r < p.maxstacksize
  · rw [List.getElem?_range hr] at hn
    by_cases hparameter : r < p.numparams
    · simp only [Option.map_some, if_pos hparameter, Option.getD_some] at hn
      exact hn
    · simp [hparameter, Symbolic.number] at hn
  · rw [List.getElem?_eq_none (by simpa using hr)] at hn
    simp [Symbolic.number] at hn

/-- A write keeps the symbols right when the new symbol stands for what is written. -/
lemma Known.write {registers : Registers} (h : Known symbols args registers) {r : Nat}
    {symbol : Symbolic} (hsymbol : ∀ n', symbol.number args = some n' → n' = n) :
    Known (symbols.set r symbol) args (Function.update registers r (some n)) := by
  intro r' n' hn'
  by_cases hr : r' = r
  · subst hr
    rw [Function.update_self]
    by_cases hlength : r' < symbols.length
    · rw [List.getD, List.getElem?_set_self hlength] at hn'
      rw [hsymbol n' hn']
    · rw [List.getD, List.getElem?_eq_none (by simpa using hlength)] at hn'
      cases hn'
  · rw [Function.update_of_ne hr]
    apply h r' n'
    simpa [List.getD, List.getElem?_set, Ne.symm hr] using hn'

/-- Two equal writes have written one number. -/
lemma eq_of_write {r pc pc' : Nat} {n' : Number} (h : write s r n' pc = write s r n pc') : n' = n := by
  injection h with h
  injection h with _ h
  simpa using congrFun h r

/-- Whatever is known of a result is what the machine writes. -/
lemma symbolicResult_of_step (h : Known symbols args s.registers)
    (hwrites : (p.fetch s.pc).opcode.writesFloatDestination = true)
    (hstep : step float ofInteger p s =
      some (write s (p.fetch s.pc).A n (s.pc + (p.fetch s.pc).width))) :
    ∃ symbol, symbolicResult p (p.fetch s.pc) symbols = some symbol ∧
      ∀ n', symbol.number args = some n' → n' = n := by
  have hwritten : ∀ n', step float ofInteger p s = some (write s (p.fetch s.pc).A n' (s.pc + 1)) →
      n' = n := fun n' hn' => eq_of_write (Option.some.inj (hn'.symm.trans hstep))
  rcases hopcode : (p.fetch s.pc).opcode
  all_goals simp only [OpCode.writesFloatDestination, hopcode, Bool.false_eq_true] at hwrites
  all_goals refine ⟨_, by simp only [symbolicResult, hopcode]; rfl, fun n' hn' => ?_⟩
  all_goals simp only [step, hopcode] at hwritten
  case move => exact hwritten n' (by rw [h _ n' hn']; rfl)
  case loadI =>
    cases hn'
    exact hwritten _ rfl
  case loadK =>
    obtain ⟨value, hvalue, rfl⟩ := Symbolic.number_ofConstant hn'
    exact hwritten _ (by rw [Proto.number_of_integerConstant hvalue]; rfl)
  case unm =>
    obtain ⟨value, hvalue, rfl⟩ := Symbolic.number_ofConstant hn'
    obtain ⟨source, hsource, hnegated⟩ := Option.bind_eq_some_iff.mp hvalue
    cases hnegated
    exact hwritten _ (by rw [h _ _ (Symbolic.number_of_constant? hsource args)]; rfl)
  all_goals cases hn'

/-- The analysis of the code before a loop keeps up with the machine. -/
lemma Known.leads (h : Leads float ofInteger p s s')
    (hknown : Known (symbolicRegisters p s.pc) args s.registers) :
    Known (symbolicRegisters p s'.pc) args s'.registers := by
  induction h with
  | refl => exact hknown
  | tail _ hwrites ih =>
      obtain ⟨n, hn⟩ := write_of_step hwrites.writes hwrites.step
      cases hn
      obtain ⟨symbol, hresult, hsymbol⟩ := symbolicResult_of_step ih hwrites.writes hwrites.step
      dsimp only
      rw [symbolicRegisters_behind hresult hwrites.fallback]
      exact ih.write hsymbol

end NumberVm

/-! ## The plan of a Float64 loop -/

/-- The bits of `-0.0`, which are those of the least integer. -/
def negativeZero : Word := 0x8000000000000000

/-- What comparing with zero means for doubles and for converted integers. -/
structure ComparesZero (equal : Word → Word → Bool) (ofInteger : Word → Word) : Prop where
  bits (bits : Word) : equal bits 0 = true ↔ bits = 0 ∨ bits = negativeZero
  integer (value : Word) : equal (ofInteger value) 0 = true ↔ value = 0

section plan

variable {ofInteger : Word → Word} {p : Proto} {optimized : Bool} {l : FloatLoopSite}
  {e e₁ e' : Emitter ControlFlowBuilder} {args : List Word} {host : Host} {f : ControlFlowFunction}

/-- The preparation that is found is the first one. -/
lemma find?_of_findFloatPreparation {pc : Nat} (h : findFloatPreparation p = .ok pc) :
    (List.range p.sizecode).find? (fun pc => (p.fetch pc).opcode == .forPrep) = some pc := by
  unfold findFloatPreparation at h
  split at h
  case h_1 | h_3 => cases h
  case h_2 found hfilter =>
    cases h
    rw [← List.head?_filter, hfilter]
    rfl

/-- The plan of an emitted Float64 loop is a loop with its own step. -/
lemma FloatLoopEmission.plan (h : FloatLoopEmission ofInteger p optimized l e e₁ e') :
    (analyzeLoopHotness p).isLoop = true ∧ (analyzeLoopHotness p).step =
      (symbolicRegisters p l.preparationPc).getD (l.stateBase + 2) .unknown := by
  have hstate := h.state
  unfold analyzeLoopHotness
  rw [if_neg (by omega), find?_of_findFloatPreparation h.preparation]
  dsimp only
  rw [h.base, if_neg (by omega)]
  simp only [analyzeLoopControls, h.base]
  split <;> exact ⟨rfl, rfl⟩

/-- A zero step that the plan finds is one, or its bits are those of a zero. -/
lemma zero_of_plan (hzero : ComparesZero host.float.equal ofInteger)
    (hcompile : compileFloat64NumericForPrototype ofInteger p optimized = .ok f)
    (hbyte : p.numparams < 256) (hargs : args.length = p.numparams) :
    ((analyzeLoopHotness p).hasZeroFloatStep host.float.equal args = true →
        NumberVm.Ends host.float ofInteger p (NumberVm.start args) .stepIsZero ∨
          (analyzeLoopHotness p).step = .constant negativeZero) ∧
      ((analyzeLoopHotness p).step = .constant negativeZero →
        (analyzeLoopHotness p).hasZeroFloatStep host.float.equal args = true) := by
  obtain ⟨l, e, e₁, e', h, rfl⟩ := floatLoopEmission_of_compile hcompile
  obtain ⟨hloop, hplan⟩ := h.plan
  obtain ⟨-, numbers, stride, -, -, -, hmachine, hstride, -, hends⟩ := h.arrives host hbyte hargs {}
  have hknown := NumberVm.Known.leads hmachine (NumberVm.known_start p args)
  have hheld : ∀ n, (analyzeLoopHotness p).step.number args = some n → stride = n := by
    intro n hn
    rw [hplan] at hn
    exact Option.some.inj (hstride.symm.trans (hknown _ n hn))
  simp only [LoopHotnessPlan.hasZeroFloatStep, hloop, Bool.true_and]
  rw [hends]
  rcases hstep : (analyzeLoopHotness p).step with - | value | index
  all_goals rw [hstep] at hheld
  · exact ⟨fun hfound => by simp [Symbolic.resolve] at hfound, fun hconstant => by cases hconstant⟩
  · obtain rfl := hheld _ rfl
    simp only [Symbolic.resolve, Option.any_some, Number.toDouble, Symbolic.constant.injEq]
    rw [hzero.bits, hzero.integer]
    exact ⟨id, .inr⟩
  · refine ⟨fun hfound => .inl ?_, fun hconstant => by cases hconstant⟩
    simp only [Symbolic.resolve] at hfound
    rcases hargument : args[index]? with - | bits
    · rw [hargument] at hfound
      cases hfound
    · rw [hargument] at hfound
      obtain rfl := hheld (.float bits) (by simp [Symbolic.number, hargument])
      exact hfound

end plan

/-! ## Calls -/

section calls

variable {ofInteger : Word → Word} {p : Proto} {optimized : Bool} {args : List Word} {host : Host}
  {f : ControlFlowFunction}

/-- Only an exit at `OP_FORPREP` is reported as a zero step. -/
lemma invocationError_eq_stepIsZero {opcode : OpCode} {status : Status} :
    invocationError opcode status = stepIsZeroText ↔ opcode = .forPrep := by
  have hgeneric : String.ofList (("UniJIT invocation failed at site " ++ toString status.location ++
      ": " ++ status.message).toList.take 255) ≠ stepIsZeroText := by
    intro heq
    have hhead := congrArg (fun text => text.toList.head?) heq
    simp [stepIsZeroText] at hhead
  constructor
  · intro htext
    unfold invocationError at htext
    split at htext
    case h_5 => rfl
    case h_6 => exact absurd htext hgeneric
    all_goals exact absurd htext (by decide)
  · rintro rfl
    rfl

/-- The exit of a Float64 loop is at its preparation. -/
lemma exitOpcode_eq_forPrep {zero : Prop} {status : Status} {m : Machine}
    (hexits : ExitsForStep p zero (.error status m)) :
    exitOpcode (some p) status = .forPrep ↔ zero := by
  by_cases hcode : status.code = .runtimeExit
  · have hopcode := hexits.1 status m rfl hcode
    have hexit := exitOpcode_of_runtimeExit hcode (p := p) (by rw [hopcode]; decide)
    exact iff_of_true (hexit.trans hopcode) (hexits.2.mp ⟨status, m, rfl, hcode⟩)
  · refine iff_of_false ?_ fun hzero => ?_
    · rw [exitOpcode, if_neg fun h => hcode h.1]
      decide
    · obtain ⟨_, _, hr, hcode'⟩ := hexits.2.mpr hzero
      cases hr
      exact hcode hcode'

/-- A failed run is reported as a zero step if there is a snapshot and the step is zero. -/
lemma invocationError_eq_stepIsZero_iff {zero : Prop} {status : Status} {m : Machine}
    (hexits : ExitsForStep p zero (.error status m)) (allocated : Bool) :
    invocationError (exitOpcode (capturePrototype p allocated) status) status = stepIsZeroText ↔
      zero ∧ (capturePrototype p allocated).isSome := by
  rw [invocationError_eq_stepIsZero]
  rcases capturePrototype_cases p allocated with hsome | hnone
  · simp [hsome, exitOpcode_eq_forPrep hexits]
  · simp [hnone, exitOpcode]

/-- A call with floats runs the code, unless the plan finds a zero step. -/
lemma invoke_floats {equal : Word → Word → Bool} {code : TierCode} {allocated : Bool}
    (surplus : List LuaValue) (hargs : args.length = p.numparams) :
    invokeCompiledFunction equal (prepareCompiledFunction p .float64 allocated code)
        (args.map .float ++ surplus) =
      if (analyzeLoopHotness p).hasZeroFloatStep equal args then .error stepIsZeroText
      else match code.run args callMachine with
        | .error status _ => .error (invocationError
            (exitOpcode (capturePrototype p allocated) status) status)
        | .ok value m => .ok ⟨.float value, code.measuredBackedges m⟩ :=
  invoke_values .float64 surplus hargs

/-- **A zero step.** A call of a Float64 loop reports a zero step exactly if the machine stops for it
and the plan finds it or there is a snapshot of the prototype, or the step is the integer constant
whose bits are those of `-0.0`. Whenever the machine stops for its step, the call fails. -/
theorem invoke_eq_stepIsZero_iff (hzero : ComparesZero host.float.equal ofInteger)
    (hcompile : compileFloat64NumericForPrototype ofInteger p optimized = .ok f)
    (hverify : f.verify = .ok ()) (hbyte : p.numparams < 256) (hargs : args.length = p.numparams)
    (allocated : Bool) (surplus : List LuaValue) :
    ∃ enough, ∀ budget, enough ≤ budget →
      let result := invokeCompiledFunction host.float.equal
        (prepareCompiledFunction p .float64 allocated
          ((Translated.graph f).tierCode .float64 optimized host budget))
        (args.map .float ++ surplus)
      (result = .error stepIsZeroText ↔
        NumberVm.Ends host.float ofInteger p (NumberVm.start args) .stepIsZero ∧
            ((analyzeLoopHotness p).hasZeroFloatStep host.float.equal args ∨
              (capturePrototype p allocated).isSome) ∨
          (analyzeLoopHotness p).step = .constant negativeZero) ∧
      (NumberVm.Ends host.float ofInteger p (NumberVm.start args) .stepIsZero →
        ∃ text, result = .error text) := by
  obtain ⟨hfound, hconstant⟩ := zero_of_plan hzero hcompile hbyte hargs
  obtain ⟨l, e, e₁, e', h, rfl⟩ := floatLoopEmission_of_compile hcompile
  obtain ⟨enough, hexits⟩ := ControlFlowFunction.interpret_of_yields hverify (h.create host) hargs
    (h.yields host hbyte hargs) callMachine
  refine ⟨enough, fun budget hbudget => ?_⟩
  have hrun := hexits budget hbudget
  dsimp only
  rw [invoke_floats surplus hargs]
  by_cases hplan : (analyzeLoopHotness p).hasZeroFloatStep host.float.equal args = true
  · rw [if_pos hplan]
    refine ⟨iff_of_true rfl ?_, fun _ => ⟨_, rfl⟩⟩
    exact (hfound hplan).imp_left fun hends => ⟨hends, .inl hplan⟩
  rw [if_neg hplan, or_iff_left fun hstep => hplan (hconstant hstep), or_iff_right hplan]
  dsimp only [Translated.tierCode, Translated.interpret]
  rcases hresult : e'.builder.build.interpret host args budget callMachine with
    ⟨value, m⟩ | ⟨status, m⟩
  all_goals rw [hresult] at hrun
  · have hends : ¬NumberVm.Ends host.float ofInteger p (NumberVm.start args) .stepIsZero := by
      intro hends
      obtain ⟨_, _, hr, -⟩ := hrun.2.mpr hends
      cases hr
    exact ⟨iff_of_false (fun h => by cases h) fun h => hends h.1, fun h => absurd h hends⟩
  · refine ⟨?_, fun _ => ⟨_, rfl⟩⟩
    rw [Except.error.injEq, invocationError_eq_stepIsZero_iff hrun]

/-- `for i = 1.0, a, 1 << 63 do end return a`, whose step the Lua compiler folds. -/
def leastStep : Proto where
  numparams := 1
  maxstacksize := 4
  k := [.integer negativeZero]
  code :=
    [{ opcode := .loadF, A := 1, sBx := 1 },
     { opcode := .move, A := 2, B := 0 },
     { opcode := .loadK, A := 3, Bx := 0 },
     { opcode := .forPrep, A := 1, Bx := 0 },
     { opcode := .forLoop, A := 1, Bx := 1 },
     { opcode := .ret1, A := 0 }]

-- A step that is not zero and is reported as one.
example : (analyzeLoopHotness leastStep).step = .constant negativeZero := by decide

/-- Integers up to 10 as doubles; all others as `2 ^ 63`. -/
def smallOfInteger (value : Word) : Word :=
  if value = 0 then 0 else if value = 1 then 0x3FF0000000000000
  else if value = 10 then 0x4024000000000000 else 0x43E0000000000000

/-- A host that compares numbers; both zeros are equal. -/
def numberHost : Host :=
  { sampleHost with
    float := { sampleHost.float with
      equal := fun x y => decide (x = y ∨ (x = 0 ∨ x = negativeZero) ∧ (y = 0 ∨ y = negativeZero)) } }

/-- The host of numbers compares with zero as Lua does. -/
lemma comparesZero_numberHost : ComparesZero numberHost.float.equal smallOfInteger where
  bits bits := by simp [numberHost]
  integer value := by
    unfold smallOfInteger
    split_ifs <;> simp_all [numberHost, negativeZero]

/-- The summing loop with step 0: the machine stops for it, and the call reports it. -/
theorem invoke_summingLoop :
    ∃ f, compileFloat64NumericForPrototype smallOfInteger summingLoop true = .ok f ∧
      ∃ enough, ∀ budget, enough ≤ budget →
        let result := invokeCompiledFunction numberHost.float.equal
          (prepareCompiledFunction summingLoop .float64 true
            ((Translated.graph f).tierCode .float64 true numberHost budget))
          ([0].map .float ++ [])
        (result = .error stepIsZeroText ↔
          NumberVm.Ends numberHost.float smallOfInteger summingLoop (NumberVm.start [0])
                .stepIsZero ∧
              ((analyzeLoopHotness summingLoop).hasZeroFloatStep numberHost.float.equal [0] ∨
                (capturePrototype summingLoop true).isSome) ∨
            (analyzeLoopHotness summingLoop).step = .constant negativeZero) ∧
        (NumberVm.Ends numberHost.float smallOfInteger summingLoop (NumberVm.start [0])
            .stepIsZero → ∃ text, result = .error text) := by
  have hverify : (compileFloat64NumericForPrototype smallOfInteger summingLoop true >>=
      fun f => f.verify) = .ok () := by
    decide +kernel
  obtain ⟨f, hcompile, hverify⟩ := bind_eq_ok.mp hverify
  exact ⟨f, hcompile,
    invoke_eq_stepIsZero_iff comparesZero_numberHost hcompile hverify (by decide) rfl true []⟩

/-! ## Code without a loop -/

/-- A call of Float64 code without a loop gives the float that the machine returns and records no
backedges, or it is refused. -/
def FloatAnswers (float : FloatUnit) (ofInteger : Word → Word) (p : Proto)
    (supplied : List LuaValue) (result : Except String Answer) : Prop :=
  (∃ (args : List Word) (surplus : List LuaValue) (w : Word),
      supplied = args.map .float ++ surplus ∧ args.length = p.numparams ∧
      NumberVm.Ends float ofInteger p (NumberVm.start args) (.returned (.float w)) ∧
      result = .ok ⟨.float w, 0⟩) ∨
    Refuses p .float64 supplied result

/-- A prototype that compiles to straight-line code has no loop plan. -/
lemma compileFloat64Prototype_eq_straight {g : Function}
    (h : compileFloat64Prototype ofInteger p optimized = .ok (.straight g)) :
    analyzeLoopHotness p = {} ∧ compileFloat64StraightPrototype ofInteger p = .ok g := by
  unfold compileFloat64Prototype at h
  obtain ⟨_, -, h⟩ := bind_eq_ok.mp h
  split_ifs at h with hloop
  · rcases hcompile : compileFloat64NumericForPrototype ofInteger p optimized with status | g'
    all_goals
      rw [hcompile] at h
      cases h
  · rcases hcompile : compileFloat64StraightPrototype ofInteger p with status | g'
    all_goals
      rw [hcompile] at h
      cases h
    exact ⟨analyzeLoopHotness_of_straight (by simpa using hloop), rfl⟩

/-- **Float64 code.** Every call of compiled Float64 code without a loop is answered: with the float
that the machine returns, or with the argument that is missing. -/
theorem floatAnswers_of_compile (equal : Word → Word → Bool) (allocated : Bool) (budget : Nat)
    (supplied : List LuaValue) {g : Function}
    (hcompile : compileFloat64Prototype ofInteger p optimized = .ok (.straight g))
    (hverify : g.verify = .ok ()) (hbyte : p.numparams < 256) :
    FloatAnswers host.float ofInteger p supplied
      (invokeCompiledFunction equal
        (prepareCompiledFunction p .float64 allocated
          ((Translated.straight g).tierCode .float64 optimized host budget))
        supplied) := by
  obtain ⟨hplan, hfunction⟩ := compileFloat64Prototype_eq_straight hcompile
  rcases values_or_refuses p .float64 supplied with ⟨args, surplus, hsupplied, hargs⟩ | hrefuses
  · obtain ⟨hstart, hyields⟩ := yields_of_compileFloat64Straight host hfunction hbyte hargs
    obtain ⟨w, m, hrun, hends⟩ : ReturnsFloat host ofInteger p args
        (g.interpret host args callMachine) :=
      interpret_of_yields (by simpa using hbyte) hverify hstart (by simpa using hargs) hyields _
    rw [hsupplied]
    refine .inl ⟨args, surplus, w, rfl, hargs, hends, (invoke_floats surplus hargs).trans ?_⟩
    simp only [LoopHotnessPlan.hasZeroFloatStep, hplan, Bool.false_and, Bool.false_eq_true, if_false,
      Translated.tierCode, Translated.interpret, hrun, TierCode.measuredBackedges]
  · exact .inr (hrefuses equal allocated _)

/-- The division of two floats, called with 0.0 and a small number. -/
theorem floatAnswers_divide :
    ∃ g, compileFloat64Prototype id divide true = .ok (.straight g) ∧
      FloatAnswers sampleHost.float id divide [.float 0, .float 1]
        (invokeCompiledFunction (· == ·) (prepareCompiledFunction divide .float64 true
          ((Translated.straight g).tierCode .float64 true sampleHost 0)) [.float 0, .float 1]) := by
  have hverify : (compileFloat64StraightPrototype id divide >>= Function.verify) = .ok () := by
    decide +kernel
  obtain ⟨g, hfunction, hverify⟩ := bind_eq_ok.mp hverify
  have hcompile : compileFloat64Prototype id divide true = .ok (.straight g) := by
    have hlayout : compileFloat64Prototype id divide true =
        (compileFloat64StraightPrototype id divide).map .straight := rfl
    rw [hlayout, hfunction]
    rfl
  exact ⟨g, hcompile, floatAnswers_of_compile _ _ _ _ hcompile hverify (by decide)⟩

end calls

end UniJit.Lua
