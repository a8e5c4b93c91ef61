import UniJit.Ir.StraightRuns
import UniJit.Lua.FloatRuns
import UniJit.Lua.IntegerRuns

/-!
# Straight-line translations preserve meaning

A prototype without a loop becomes a straight-line function. Run with the arguments of a call, it
returns what the Lua machine returns, and the translation of integer code leaves at the guard of
the division at which the machine stops (`interpret_of_compileStraight`,
`interpret_of_compileFloat64Straight`).
-/

namespace UniJit.Lua

open UniJit.Ir UniJit.Lib UniJit.Runtime LawfulScalarBuilder

variable {host : Host} {args : List Word}

/-! ## Parameters -/

section parameters

variable {types : List ValueType} (hcount : types.length < 256)
include hcount

/-- A new builder has the parameter types it was given. -/
lemma parameterTypes_create : (FunctionBuilder.create types).function.parameterTypes = types := by
  have hlarge : 256 < kInvalidIndex.toNat := by decide
  exact List.take_of_length_le (by omega)

/-- A new builder holds its parameters only. -/
lemma length_create : (FunctionBuilder.create types).function.nodes.length = types.length := by
  have htypes := parameterTypes_create hcount
  simp only [FunctionBuilder.create] at htypes ⊢
  rw [List.length_mapIdx, htypes]

/-- A parameter of a new builder is the value at its index. -/
lemma parameter_create {r : Nat} (hr : r < types.length) :
    (FunctionBuilder.create types).parameter r = .ofIndex r ∧ (Value.ofIndex r).index = r := by
  have hlarge : 256 < kInvalidIndex.toNat := by decide
  have htypes := parameterTypes_create hcount
  refine ⟨?_, Value.index_ofIndex (by omega)⟩
  rw [FunctionBuilder.parameter, Function.parameterCount, htypes, if_neg (by omega)]

/-- A function that was built from these parameters runs from behind them. -/
lemma interpret_of_yields {f : Function} (hverify : f.verify = .ok ())
    (hpart : (FunctionBuilder.create types).function.PartOf f) (hargs : args.length = types.length)
    {post : Post} (h : ∀ m, (f.code host args).Yields (FunctionBuilder.create types)
      (Function.loadArguments args types.length (Values.zero f.nodes.length)) m post)
    (m : Machine) : post (f.interpret host args m) := by
  have hparameters : f.parameterCount = types.length := by
    rw [Function.parameterCount, ← hpart.parameterTypes, parameterTypes_create hcount]
  obtain ⟨m', hrun⟩ := Function.interpret_eq_resume host hverify (by omega)
    hpart.trustedObjects.symm (hargs.trans hparameters.symm)
    ((length_create hcount).trans hparameters.symm) m
  rw [hrun, hparameters]
  exact h m'

end parameters

/-! ## Integer functions -/

/-- The arguments in the machine are the loaded parameters. -/
lemma holdsWords_start {p : Proto} {count : Nat} (hbyte : p.numparams < 256)
    (hargs : args.length = p.numparams) (hcount : p.numparams ≤ count) :
    HoldsWords (fun _ => True) (parameterRegisters p
        (FunctionBuilder.create (List.replicate p.numparams .word)).parameter)
      (Vm.start args).registers
      (size (FunctionBuilder.create (List.replicate p.numparams .word)))
      (Function.loadArguments args p.numparams (Values.zero count)) := by
  have hlength : (List.replicate p.numparams ValueType.word).length < 256 := by simpa using hbyte
  intro r _ hvalid
  have hr := parameterRegisters_spec hvalid
  have hstack : r < p.maxstacksize := by
    by_contra hstack
    rw [parameterRegisters, List.getD, List.getElem?_eq_none (by simpa using hstack)] at hvalid
    exact not_valid_invalid hvalid
  obtain ⟨hvalue, hindex⟩ := parameter_create hlength (r := r) (by simpa using hr)
  have hget : (parameterRegisters p (FunctionBuilder.create
      (List.replicate p.numparams .word)).parameter).getD r .invalid = .ofIndex r := by
    simp [parameterRegisters, List.getD, List.getElem?_map, List.getElem?_range hstack, hr, hvalue]
  rw [hget, Function.word_loadArguments (by omega) (by simpa [Values.zero] using hcount), hindex]
  refine ⟨?_, ?_⟩
  · show r < (FunctionBuilder.create _).function.nodes.length
    rwa [length_create hlength, List.length_replicate]
  · simp [Vm.start, List.getD, hargs ▸ hr]

/-- The function of a prototype without a loop begins with its parameters, and behind them it runs
as the machine does. -/
lemma yields_of_compileStraight {p : Proto} {f : Function} (host : Host)
    (hcompile : compileStraightPrototype p = .ok f) (hbyte : p.numparams < 256)
    (hargs : args.length = p.numparams) :
    (FunctionBuilder.create (List.replicate p.numparams .word)).function.PartOf f ∧
      ∀ m, (f.code host args).Yields
        (FunctionBuilder.create (List.replicate p.numparams .word))
        (Function.loadArguments args (List.replicate p.numparams ValueType.word).length
          (Values.zero f.nodes.length)) m (Agrees p (Vm.start args)) := by
  unfold compileStraightPrototype at hcompile
  obtain ⟨_, -, hcompile⟩ := bind_eq_ok.mp hcompile
  dsimp only at hcompile
  split at hcompile
  case h_1 => cases hcompile
  case h_2 values returned e htranslate =>
  obtain ⟨hreturned, hcompile⟩ := require_bind_eq_ok.mp hcompile
  cases hcompile
  have hrange := follows_range (e.builder.function.code host args) (fun _ => False)
    (Scope.all p 0 p.sizecode) le_rfl (fun _ => False.elim) le_rfl (Nat.zero_le _) (by omega) htranslate
  rcases hrange with ⟨hfalse, -⟩ | ⟨-, -, last, e₁, hfollows, hreturns⟩
  · rw [hreturned] at hfalse
    cases hfalse
  have hreturn := Function.resume_of_setReturn host args hreturns.recorded
  have hpart : (e.builder.function.code host args).Part e₁.builder := (hreturn (Values.zero 0) {}).1
  have hstart := hfollows.grows.part hpart
  have hlength : (List.replicate p.numparams ValueType.word).length < 256 := by simpa using hbyte
  have hcount : p.numparams ≤ e.builder.function.nodes.length := by
    have hle := hstart.nodes.length_le
    rwa [length_create hlength, List.length_replicate] at hle
  refine ⟨hstart, fun m => ?_⟩
  rw [List.length_replicate]
  refine hfollows.runs hpart _ m _ ?_ (holdsWords_start hbyte hargs hcount)
    fun s registers _ _ _ hholds => ?_
  · rw [Function.length_loadArguments]
    exact List.length_replicate
  · show Agrees p _ (e.builder.function.resume host args e₁.builder s m)
    rw [(hreturn s m).2.2]
    exact hreturns.agrees hholds m

/-- **Integer code.** The function of a prototype without a loop ends as the machine does. -/
theorem interpret_of_compileStraight {p : Proto} {f : Function}
    (hcompile : compileStraightPrototype p = .ok f) (hverify : f.verify = .ok ())
    (hbyte : p.numparams < 256) (hargs : args.length = p.numparams) (m : Machine) :
    Agrees p (Vm.start args) (f.interpret host args m) := by
  obtain ⟨hstart, hyields⟩ := yields_of_compileStraight host hcompile hbyte hargs
  exact interpret_of_yields (by simpa using hbyte) hverify hstart (by simpa using hargs) hyields m

/-- `return a // b`. -/
def floorDivide : Proto where
  numparams := 2
  maxstacksize := 3
  code :=
    [{ opcode := .idiv, A := 2, B := 0, C := 1 },
     { opcode := .mmbin, A := 0, B := 1 },
     { opcode := .ret1, A := 2 }]

/-- The compiled floor division of 7 by 0 agrees with the machine. -/
theorem interpret_floorDivide :
    ∃ f, compileStraightPrototype floorDivide = .ok f ∧
      Agrees floorDivide (Vm.start [7, 0]) (f.interpret sampleHost [7, 0] {}) := by
  have hverify : (compileStraightPrototype floorDivide >>= Function.verify) = .ok () := by
    decide +kernel
  obtain ⟨f, hcompile, hverify⟩ := bind_eq_ok.mp hverify
  exact ⟨f, hcompile, interpret_of_compileStraight hcompile hverify (by decide) rfl {}⟩

/-! ## Float64 functions -/

/-- Only parameters have a value at the entry. -/
lemma floatParameterRegisters_spec {p : Proto} {parameter : Nat → Value} {r : Nat}
    (h : ((floatParameterRegisters p parameter).getD r {}).value.valid) :
    r < p.maxstacksize ∧ r < p.numparams := by
  have hstack : r < p.maxstacksize := by
    by_contra hstack
    rw [floatParameterRegisters, List.getD, List.getElem?_eq_none (by simpa using hstack)] at h
    exact not_valid_invalid h
  refine ⟨hstack, ?_⟩
  by_contra hr
  simp [floatParameterRegisters, List.getD, List.getElem?_map, List.getElem?_range hstack, hr,
    Value.valid, Value.invalid] at h

/-- The arguments in the machine on numbers are the loaded parameters. -/
lemma holds_start {p : Proto} {ofInteger : Word → Word} {count : Nat} (hbyte : p.numparams < 256)
    (hargs : args.length = p.numparams) (hcount : p.numparams ≤ count) :
    Holds ofInteger (fun _ => True) (floatParameterRegisters p
        (FunctionBuilder.create (List.replicate p.numparams .float64)).parameter)
      (NumberVm.start args).registers
      (size (FunctionBuilder.create (List.replicate p.numparams .float64)))
      (Function.loadArguments args p.numparams (Values.zero count)) := by
  have hlength : (List.replicate p.numparams ValueType.float64).length < 256 := by simpa using hbyte
  intro r _ hvalid
  obtain ⟨hstack, hr⟩ := floatParameterRegisters_spec hvalid
  obtain ⟨hvalue, hindex⟩ := parameter_create hlength (r := r) (by simpa using hr)
  have hget : (floatParameterRegisters p (FunctionBuilder.create
      (List.replicate p.numparams .float64)).parameter).getD r {} = ⟨.ofIndex r, .float64⟩ := by
    simp [floatParameterRegisters, List.getD, List.getElem?_map, List.getElem?_range hstack, hr,
      hvalue]
  rw [hget]
  refine ⟨?_, .float (args.getD r 0), ?_, rfl, ?_⟩
  · show (Value.ofIndex r).index < (FunctionBuilder.create _).function.nodes.length
    rwa [hindex, length_create hlength, List.length_replicate]
  · simp [NumberVm.start, List.getD, hargs ▸ hr]
  · show args.getD r 0 = Values.word _ (Value.ofIndex r)
    rw [Function.word_loadArguments (by omega) (by simpa [Values.zero] using hcount), hindex]

/-- A computation returns the float that the machine returns. -/
def ReturnsFloat (host : Host) (ofInteger : Word → Word) (p : Proto) (args : List Word)
    (r : EStateM.Result Status Machine Word) : Prop :=
  ∃ w m, r = .ok w m ∧
    NumberVm.Ends host.float ofInteger p (NumberVm.start args) (.returned (.float w))

/-- The function of a prototype without a loop begins with its parameters, and behind them it
returns what the machine on numbers returns. -/
lemma yields_of_compileFloat64Straight {ofInteger : Word → Word} {p : Proto} {f : Function}
    (host : Host) (hcompile : compileFloat64StraightPrototype ofInteger p = .ok f)
    (hbyte : p.numparams < 256) (hargs : args.length = p.numparams) :
    (FunctionBuilder.create (List.replicate p.numparams .float64)).function.PartOf f ∧
      ∀ m, (f.code host args).Yields
        (FunctionBuilder.create (List.replicate p.numparams .float64))
        (Function.loadArguments args (List.replicate p.numparams ValueType.float64).length
          (Values.zero f.nodes.length)) m (ReturnsFloat host ofInteger p args) := by
  unfold compileFloat64StraightPrototype at hcompile
  dsimp only at hcompile
  split at hcompile
  case h_1 => cases hcompile
  case h_2 values returned e htranslate =>
  obtain ⟨hreturned, hcompile⟩ := require_bind_eq_ok.mp hcompile
  cases hcompile
  have hrange := simulates_range (e.builder.function.code host args)
    (fun _ => False) (FloatScope.all p 0 p.sizecode) (fun _ => False.elim) le_rfl
    (Nat.zero_le _) (by omega) htranslate
  rcases hrange with ⟨hfalse, -⟩ | ⟨-, -, last, e₁, hsimulates, hrecords⟩
  · rw [hreturned] at hfalse
    cases hfalse
  have hreturn := Function.resume_of_setReturn host args hrecords.recorded
  have hpart : (e.builder.function.code host args).Part e₁.builder := (hreturn (Values.zero 0) {}).1
  have hstart := hsimulates.grows.part hpart
  have hlength : (List.replicate p.numparams ValueType.float64).length < 256 := by simpa using hbyte
  have hcount : p.numparams ≤ e.builder.function.nodes.length := by
    have hle := hstart.nodes.length_le
    rwa [length_create hlength, List.length_replicate] at hle
  refine ⟨hstart, fun m => ?_⟩
  rw [List.length_replicate]
  obtain ⟨s, registers, hleads, -, hmachine, -, hholds⟩ := hsimulates.leads hpart _ m _
    (by rw [Function.length_loadArguments]; exact List.length_replicate)
    (holds_start hbyte hargs hcount)
  refine hleads _ ?_
  show ReturnsFloat host ofInteger p args (e.builder.function.resume host args e₁.builder s m)
  rw [(hreturn s m).2.2]
  exact ⟨_, m, rfl, hmachine.ends.mpr (hrecords.ends hholds)⟩

/-- **Float64 code.** The function of a prototype without a loop returns the float that the machine
returns. -/
theorem interpret_of_compileFloat64Straight {ofInteger : Word → Word} {p : Proto} {f : Function}
    (hcompile : compileFloat64StraightPrototype ofInteger p = .ok f) (hverify : f.verify = .ok ())
    (hbyte : p.numparams < 256) (hargs : args.length = p.numparams) (m : Machine) :
    ∃ w m', f.interpret host args m = .ok w m' ∧
      NumberVm.Ends host.float ofInteger p (NumberVm.start args) (.returned (.float w)) := by
  obtain ⟨hstart, hyields⟩ := yields_of_compileFloat64Straight host hcompile hbyte hargs
  exact interpret_of_yields (by simpa using hbyte) hverify hstart (by simpa using hargs) hyields m

/-- `return a / b`. -/
def divide : Proto where
  numparams := 2
  maxstacksize := 3
  code :=
    [{ opcode := .div, A := 2, B := 0, C := 1 },
     { opcode := .mmbin, A := 0, B := 1 },
     { opcode := .ret1, A := 2 }]

/-- The compiled Float64 division of 0 by 1 returns what the machine returns. -/
theorem interpret_divide :
    ∃ f w m, compileFloat64StraightPrototype id divide = .ok f ∧
      f.interpret sampleHost [0, 1] {} = .ok w m ∧
      NumberVm.Ends sampleHost.float id divide (NumberVm.start [0, 1]) (.returned (.float w)) := by
  have hverify : (compileFloat64StraightPrototype id divide >>= Function.verify) = .ok () := by
    decide +kernel
  obtain ⟨f, hcompile, hverify⟩ := bind_eq_ok.mp hverify
  have hargs : ([0, 1] : List Word).length = divide.numparams := rfl
  obtain ⟨w, m, hrun⟩ := interpret_of_compileFloat64Straight hcompile hverify (by decide) hargs {}
  exact ⟨f, w, m, hcompile, hrun⟩

end UniJit.Lua
