import UniJit.Lua.LoopIterations
import UniJit.Lua.LoopPreservation
import UniJit.Lua.StraightTranslation

/-!
# Calls of compiled functions

A function that was compiled is called from Lua with a list of values. `invokeCompiledFunction`
checks the arguments, reports a zero step of the loop before it runs any code, and turns an exit of
the code into the text of a Lua error. A call of compiled integer code answers as the Lua machine
ends (`answers_of_compile`): the analysis of the loop always knows its step, and what it finds to be
zero is what `OP_FORPREP` would stop at.
-/

namespace UniJit.Lua

open UniJit.Ir UniJit.Lib UniJit.Runtime

/-! ## Calls -/

/-- The values that a call gives and takes. -/
inductive LuaValue
  | integer (value : Word)
  | float (bits : Word)
  | other
  deriving DecidableEq, Repr

/-- Whether a function was compiled for integers or for Float64. -/
inductive NumericMode
  | integer | float64
  deriving DecidableEq, Repr

/-- `has_zero_step`. -/
def LoopHotnessPlan.hasZeroStep (plan : LoopHotnessPlan) (args : List Word) : Bool :=
  plan.isLoop && plan.step.resolve args == some 0

/-- `has_zero_float_step`, for the comparison of doubles. -/
def LoopHotnessPlan.hasZeroFloatStep (equal : Word → Word → Bool) (plan : LoopHotnessPlan)
    (args : List Word) : Bool :=
  plan.isLoop && (plan.step.resolve args).any (equal · 0)

/-- The code of a tier. -/
structure TierCode where
  run : List Word → Exec Word
  /-- Whether the code counts its safepoint polls in the context. -/
  measureSafepointPolls : Bool

/-- What a call reads of a `CompiledFunctionState`. -/
structure CompiledFunction where
  parameterCount : Nat
  mode : NumericMode
  /-- The snapshot of the prototype, if one was captured. -/
  prototype : Option Proto
  loopHotness : LoopHotnessPlan
  /-- The code of the current tier, unless there is none. -/
  code : Option TierCode

/-- `capture_prototype`: there is no snapshot of a function that defines another one, or has a
constant that is not a number, or when memory runs out. -/
def capturePrototype (p : Proto) (allocated : Bool) : Option Proto :=
  if p.sizep ≠ 0 then none
  else if .other ∈ p.k then none
  else if allocated then some p
  else none

/-- What `prepare_compiled_function` makes of a prototype and its code. -/
def prepareCompiledFunction (p : Proto) (mode : NumericMode) (allocated : Bool) (code : TierCode) :
    CompiledFunction where
  parameterCount := p.numparams
  mode := mode
  prototype := capturePrototype p allocated
  loopHotness := analyzeLoopHotness p
  code := some code

/-- The error about an argument of the wrong type. -/
def argumentText (index : Nat) (type : String) : String :=
  "argument " ++ toString (index + 1) ++ " must be a Lua " ++ type

/-- The error about a wrong number of arguments. -/
def countText (count : Nat) : String :=
  "compiled function requires " ++ toString count ++ " arguments"

/-- One argument of a call. -/
def readArgument : NumericMode → Nat → LuaValue → Except String Word
  | .integer, _, .integer value => .ok value
  | .integer, index, _ => .error (argumentText index "integer")
  | .float64, _, .float bits => .ok bits
  | .float64, index, _ => .error (argumentText index "Float64")

/-- Converts the arguments from the stack, or reports the first that does not fit. -/
def readArguments (mode : NumericMode) : Nat → List LuaValue → Except String (List Word)
  | _, [] => .ok []
  | index, value :: rest => do
      let argument ← readArgument mode index value
      pure (argument :: (← readArguments mode (index + 1) rest))

/-- The opcode at which the code has left. -/
def exitOpcode (prototype : Option Proto) (status : Status) : OpCode :=
  match prototype with
  | none => .other
  | some p =>
      if status.code = .runtimeExit ∧ p.code ≠ [] then
        (p.fetch (status.location % p.sizecode)).opcode
      else .other

/-- Lua's error about a zero step. -/
def stepIsZeroText : String := "'for' step is zero"

/-- The text of a failed run, in a buffer of 256 characters. -/
def invocationError (opcode : OpCode) (status : Status) : String :=
  match opcode with
  | .idiv | .idivK => "attempt to divide by zero"
  | .mod | .modK => "attempt to perform 'n%0'"
  | .forPrep => stepIsZeroText
  | _ =>
      String.ofList (("UniJIT invocation failed at site " ++ toString status.location ++ ": " ++
        status.message).toList.take 255)

/-- What a call gives back: its value and the backedges that it records. -/
structure Answer where
  value : LuaValue
  backedges : Word
  deriving DecidableEq, Repr

/-- The machine of a call, with a context of its own. -/
def callMachine : Machine where
  context := some {}

/-- The safepoint polls that the context of a call has counted at its end. -/
def TierCode.measuredBackedges (code : TierCode) (m : Machine) : Word :=
  if code.measureSafepointPolls then (m.context.map (·.safepointPolls)).getD 0 else 0

/-- `invoke_compiled_function`, with the comparison of doubles. -/
def invokeCompiledFunction (equal : Word → Word → Bool) (compiled : CompiledFunction)
    (supplied : List LuaValue) : Except String Answer :=
  match compiled.code with
  | none => .error "invalid UniJIT compiled function"
  | some code => do
      require (compiled.parameterCount ≤ supplied.length) (countText compiled.parameterCount)
      let arguments ← readArguments compiled.mode 0 (supplied.take compiled.parameterCount)
      require (¬(compiled.mode = .integer ∧ compiled.loopHotness.hasZeroStep arguments))
        stepIsZeroText
      require (¬(compiled.mode = .float64 ∧ compiled.loopHotness.hasZeroFloatStep equal arguments))
        stepIsZeroText
      match code.run arguments callMachine with
      | .error status _ =>
          .error (invocationError (exitOpcode compiled.prototype status) status)
      | .ok value m =>
          match compiled.mode with
          | .integer => .ok ⟨.integer value, compiled.loopHotness.estimate arguments⟩
          | .float64 => .ok ⟨.float value, code.measuredBackedges m⟩

/-- What the interpreter of a translated prototype does with the arguments. -/
def Translated.interpret (host : Host) (maximumBlockExecutions : Nat) :
    Translated → List Word → Exec Word
  | .straight f, args => f.interpret host args
  | .graph f, args => f.interpret host args maximumBlockExecutions

/-- The code of a translated prototype, as its interpreter runs it. Of the options of
`lua_compilation_options`, only baseline code of a Float64 loop counts its safepoint polls. -/
def Translated.tierCode (mode : NumericMode) (optimized : Bool) (host : Host)
    (maximumBlockExecutions : Nat) (translated : Translated) : TierCode where
  run := translated.interpret host maximumBlockExecutions
  measureSafepointPolls :=
    match mode, translated with
    | .float64, .graph _ => !optimized
    | _, _ => false

/-- The verifier of either form. -/
def Translated.verify : Translated → Except Status Unit
  | .straight f => f.verify
  | .graph f => f.verify

/-! ## Arguments -/

/-- A value of the type that a mode takes and gives. -/
def NumericMode.value : NumericMode → Word → LuaValue
  | .integer => .integer
  | .float64 => .float

/-- Numbers of the mode are read as their words. -/
lemma readArguments_values (mode : NumericMode) (args : List Word) (index : Nat) :
    readArguments mode index (args.map mode.value) = .ok args := by
  induction args generalizing index with
  | nil => rfl
  | cons arg rest ih =>
      rw [List.map_cons, readArguments, ih]
      cases mode <;> rfl

/-- The type named in errors. -/
def NumericMode.typeName : NumericMode → String
  | .integer => "integer"
  | .float64 => "Float64"

/-- The first argument of another type is refused. -/
lemma readArguments_of_other {mode : NumericMode} {value : LuaValue}
    (hvalue : ∀ w, value ≠ mode.value w) (args : List Word) (rest : List LuaValue) (index : Nat) :
    readArguments mode index (args.map mode.value ++ value :: rest) =
      .error (argumentText (index + args.length) mode.typeName) := by
  induction args generalizing index with
  | nil =>
      rw [List.map_nil, List.nil_append, readArguments]
      rcases mode <;> rcases value with w | w | -
      all_goals first | exact absurd rfl (hvalue w) | rfl
  | cons arg args ih =>
      rw [List.map_cons, List.cons_append, readArguments, ih, List.length_cons,
        Nat.add_right_comm, Nat.add_assoc]
      cases mode <;> rfl

/-- Arguments are all of the mode's type, or there is a first that is not. -/
lemma values_or_other (mode : NumericMode) (values : List LuaValue) :
    (∃ args : List Word, values = args.map mode.value) ∨
      ∃ (args : List Word) (value : LuaValue) (rest : List LuaValue),
        values = args.map mode.value ++ value :: rest ∧ ∀ w, value ≠ mode.value w := by
  induction values with
  | nil => exact .inl ⟨[], rfl⟩
  | cons value values ih =>
      by_cases hvalue : ∃ w, value = mode.value w
      · obtain ⟨w, rfl⟩ := hvalue
        rcases ih with ⟨args, rfl⟩ | ⟨args, refused, rest, rfl, hrefused⟩
        · exact .inl ⟨w :: args, rfl⟩
        · exact .inr ⟨w :: args, refused, rest, rfl, hrefused⟩
      · exact .inr ⟨[], value, values, rfl, fun w heq => hvalue ⟨w, heq⟩⟩

/-- A call is refused for its arguments: they are too few, or the first that is of another type is
named. -/
def Refuses (p : Proto) (mode : NumericMode) (supplied : List LuaValue)
    (result : Except String Answer) : Prop :=
  (supplied.length < p.numparams ∧ result = .error (countText p.numparams)) ∨
    ∃ (args : List Word) (value : LuaValue) (rest : List LuaValue),
      supplied = args.map mode.value ++ value :: rest ∧ (∀ w, value ≠ mode.value w) ∧
      args.length < p.numparams ∧ p.numparams ≤ supplied.length ∧
      result = .error (argumentText args.length mode.typeName)

section arguments

variable {p : Proto} {mode : NumericMode} {args : List Word} {allocated : Bool}
  {code : TierCode} {equal : Word → Word → Bool}

/-- A call with too few arguments is refused. -/
lemma invoke_of_few {supplied : List LuaValue} (h : supplied.length < p.numparams) :
    invokeCompiledFunction equal (prepareCompiledFunction p mode allocated code) supplied =
      .error (countText p.numparams) := by
  have hfew := not_le.mpr h
  simp only [invokeCompiledFunction, prepareCompiledFunction, require, hfew, if_false]
  rfl

/-- A call with an argument of another type is refused. -/
lemma invoke_of_other {value : LuaValue} {rest : List LuaValue} (hvalue : ∀ w, value ≠ mode.value w)
    (hargs : args.length < p.numparams)
    (hlength : p.numparams ≤ (args.map mode.value ++ value :: rest).length) :
    invokeCompiledFunction equal (prepareCompiledFunction p mode allocated code)
        (args.map mode.value ++ value :: rest) =
      .error (argumentText args.length mode.typeName) := by
  obtain ⟨k, hk⟩ : ∃ k, p.numparams - args.length = k + 1 := ⟨p.numparams - args.length - 1, by omega⟩
  have htake : (args.map mode.value ++ value :: rest).take p.numparams =
      args.map mode.value ++ value :: rest.take k := by
    rw [List.take_append, List.take_of_length_le (by simpa using hargs.le), List.length_map, hk,
      List.take_succ_cons]
  simp only [invokeCompiledFunction, prepareCompiledFunction, require, hlength, if_true, htake,
    readArguments_of_other hvalue, Nat.zero_add]
  rfl

/-- The arguments begin with values of the mode, or the call is refused. -/
lemma values_or_refuses (p : Proto) (mode : NumericMode) (supplied : List LuaValue) :
    (∃ (args : List Word) (surplus : List LuaValue), supplied = args.map mode.value ++ surplus ∧
        args.length = p.numparams) ∨
      ∀ equal allocated code, Refuses p mode supplied
        (invokeCompiledFunction equal (prepareCompiledFunction p mode allocated code) supplied) := by
  by_cases hlength : p.numparams ≤ supplied.length
  · rcases values_or_other mode (supplied.take p.numparams) with
      ⟨args, hargs⟩ | ⟨args, value, rest, hargs, hvalue⟩
    all_goals have hcounts := congrArg List.length hargs
    · rw [List.length_take, List.length_map] at hcounts
      refine .inl ⟨args, supplied.drop p.numparams, ?_, by omega⟩
      rw [← hargs, List.take_append_drop]
    · rw [List.length_take, List.length_append, List.length_map, List.length_cons] at hcounts
      have hsupplied : supplied =
          args.map mode.value ++ value :: (rest ++ supplied.drop p.numparams) := by
        rw [← List.cons_append, ← List.append_assoc, ← hargs, List.take_append_drop]
      refine .inr fun equal allocated code => .inr
        ⟨args, value, _, hsupplied, hvalue, by omega, hlength, ?_⟩
      rw [hsupplied] at hlength ⊢
      exact invoke_of_other hvalue (by omega) hlength
  · have hfew := not_le.mp hlength
    exact .inr fun equal allocated code => .inl ⟨hfew, invoke_of_few hfew⟩

end arguments

/-! ## Divisions by zero -/

namespace Vm

variable {p : Proto} {s : State} {pc : Nat}

/-- The machine divides by zero only where an instruction divides. -/
lemma divides_of_step (h : step p s = some (.done (.divisionByZero pc))) :
    (p.fetch pc).opcode.divides = true := by
  have harithmetic : arithmetic p s (p.fetch s.pc) = some (.done (.divisionByZero pc)) →
      (p.fetch pc).opcode.divides = true := by
    intro h
    unfold arithmetic at h
    obtain ⟨⟨x, y⟩, -, h⟩ := Option.bind_eq_some_iff.mp h
    dsimp only at h
    split_ifs at h with hdivides
    · cases h
      exact hdivides.1
    · cases h
  unfold step at h
  rcases hopcode : (p.fetch s.pc).opcode
  all_goals simp only [hopcode] at h
  case forPrep =>
    unfold forPrep at h
    obtain ⟨_, -, h⟩ := Option.bind_eq_some_iff.mp h
    obtain ⟨_, -, h⟩ := Option.bind_eq_some_iff.mp h
    obtain ⟨_, -, h⟩ := Option.bind_eq_some_iff.mp h
    split_ifs at h <;> cases h
  case forLoop =>
    unfold forLoop at h
    obtain ⟨_, -, h⟩ := Option.bind_eq_some_iff.mp h
    obtain ⟨_, -, h⟩ := Option.bind_eq_some_iff.mp h
    obtain ⟨_, -, h⟩ := Option.bind_eq_some_iff.mp h
    split_ifs at h <;> cases h
  case ret =>
    split_ifs at h
    obtain ⟨_, -, h⟩ := Option.bind_eq_some_iff.mp h
    cases h
  case eq | lt | le | eqK | eqI | ltI | leI | gtI | geI =>
    unfold comparison at h
    obtain ⟨_, -, h⟩ := Option.bind_eq_some_iff.mp h
    dsimp only at h
    split_ifs at h <;> cases h
  case move | loadK | unm | bnot | ret1 =>
    obtain ⟨_, -, h⟩ := Option.bind_eq_some_iff.mp h
    cases h
  all_goals first | exact harithmetic h | cases h

/-- A division by zero is raised by an instruction that divides. -/
lemma divides_of_ends (h : Ends p s (.divisionByZero pc)) :
    (p.fetch pc).opcode.divides = true := by
  obtain ⟨fuel, hrun⟩ := h
  induction fuel generalizing s with
  | zero => cases hrun
  | succ fuel ih =>
      rw [run] at hrun
      split at hrun
      case h_1 => exact ih hrun
      case h_2 hstep =>
        cases hrun
        exact divides_of_step hstep
      case h_3 => cases hrun

end Vm

/-! ## Zero steps -/

section zero

variable {p : Proto} {l : LoopSite} {guarded : Option GuardedBodyPlan} {args : List Word}
  {registers : Registers} (haccepted : AcceptedLoop p l guarded)
include haccepted

/-- The machine holds the step that the plan knows. -/
lemma step_of_known (hargs : args.length = p.numparams)
    (hknown : Vm.Known (symbolicRegisters p l.preparationPc) args registers) :
    ∃ v, registers (l.stateBase + 2) = some v ∧
      ((analyzeLoopHotness p).hasZeroStep args = true ↔ v = 0) := by
  obtain ⟨v, hv⟩ := resolves_of_known hargs haccepted.known.2.1
  refine ⟨v, hknown _ v (haccepted.base ▸ hv), ?_⟩
  rw [Vm.analyzeLoopHotness_of_accepted haccepted]
  simp only [LoopHotnessPlan.hasZeroStep, Bool.true_and, beq_iff_eq]
  rw [show (analyzeLoopControls p l.preparationPc).step.resolve args = some v from hv,
    Option.some.injEq]

/-- At the preparation the machine prepares the loop. -/
lemma step_preparation :
    Vm.step p ⟨l.preparationPc, registers⟩ =
      Vm.forPrep ⟨l.preparationPc, registers⟩ (p.fetch l.preparationPc) := by
  have hinside : l.preparationPc < p.sizecode := by
    have hlatch := haccepted.latch.1
    have hloop := haccepted.loop
    omega
  have hopcode := (findPreparation_spec haccepted.preparation _ hinside).mpr rfl
  simp only [Vm.step, hopcode]

/-- Where the step is not known to be zero the preparation does not end the run. -/
lemma not_done_of_known (hargs : args.length = p.numparams)
    (hzero : (analyzeLoopHotness p).hasZeroStep args = false)
    (hknown : Vm.Known (symbolicRegisters p l.preparationPc) args registers) :
    Vm.step p ⟨l.preparationPc, registers⟩ ≠ some (.done .stepIsZero) := by
  obtain ⟨v, hv, hiff⟩ := step_of_known haccepted hargs hknown
  have hne : v ≠ 0 := fun heq => Bool.false_ne_true (hzero.symm.trans (hiff.mpr heq))
  rw [step_preparation haccepted, Vm.forPrep, haccepted.base]
  intro h
  obtain ⟨_, -, h⟩ := Option.bind_eq_some_iff.mp h
  obtain ⟨_, -, h⟩ := Option.bind_eq_some_iff.mp h
  obtain ⟨v', hv', h⟩ := Option.bind_eq_some_iff.mp h
  obtain rfl : v = v' := Option.some.inj (hv.symm.trans hv')
  rw [if_neg hne] at h
  split_ifs at h <;> cases h

/-- A zero step that the plan finds stops the machine, if it comes to the loop. -/
lemma ends_of_hasZeroStep (hargs : args.length = p.numparams)
    (hzero : (analyzeLoopHotness p).hasZeroStep args = true) :
    Vm.Ends p (Vm.start args) .stepIsZero ∨
      ∃ pc, Vm.Ends p (Vm.start args) (.divisionByZero pc) := by
  rcases Vm.run_setup haccepted hargs with ⟨⟨pc, registers⟩, hleads, hpc, hdefined, hknown⟩ | hdivision
  · obtain rfl : pc = l.preparationPc := hpc
    obtain ⟨v, hv, hiff⟩ := step_of_known haccepted hargs hknown
    obtain rfl := hiff.mp hzero
    obtain ⟨init, hinit⟩ := Option.isSome_iff_exists.mp (hdefined _ haccepted.controls.1.2)
    obtain ⟨limit, hlimit⟩ := Option.isSome_iff_exists.mp (hdefined _ haccepted.controls.2.1.2)
    have hdone : Vm.step p ⟨l.preparationPc, registers⟩ = some (.done .stepIsZero) := by
      rw [step_preparation haccepted, Vm.forPrep, haccepted.base]
      dsimp only at hinit hlimit hv ⊢
      rw [hinit, hlimit, hv]
      rfl
    obtain ⟨n, hiterates⟩ := Vm.ends_iff_iterates.mp (Vm.Ends.done hdone)
    exact .inl (Vm.ends_iff_iterates.mpr ⟨n, hleads.iterates.mpr hiterates⟩)
  · obtain ⟨pc, hiterates⟩ := hdivision
    exact .inr ⟨pc, Vm.ends_iff_iterates.mpr ⟨0, hiterates⟩⟩

end zero

/-- Code without a loop has no plan. -/
lemma analyzeLoopHotness_of_straight {p : Proto}
    (h : ((List.range p.sizecode).any fun pc => (p.fetch pc).opcode == .forPrep) = false) :
    analyzeLoopHotness p = {} := by
  have hnone : (List.range p.sizecode).find? (fun pc => (p.fetch pc).opcode == .forPrep) = none := by
    rw [List.find?_eq_none]
    exact List.any_eq_false.mp h
  unfold analyzeLoopHotness
  rw [hnone, ite_self]

/-! ## Answers -/

/-- What a division by zero is reported as. -/
def divisionText : OpCode → String
  | .idiv | .idivK => "attempt to divide by zero"
  | _ => "attempt to perform 'n%0'"

/-- A call with integers answers as the machine ends. A zero step is reported before any code runs,
also where the code before the loop would divide by zero. -/
def AnswersFor (p : Proto) (allocated : Bool) (args : List Word) (result : Except String Answer) :
    Prop :=
  if (analyzeLoopHotness p).hasZeroStep args then
    result = .error stepIsZeroText ∧ (Vm.Ends p (Vm.start args) .stepIsZero ∨
      ∃ pc, Vm.Ends p (Vm.start args) (.divisionByZero pc))
  else
    match result with
    | .ok answer => ∃ w, Vm.Ends p (Vm.start args) (.returned w) ∧
        answer = ⟨.integer w, (analyzeLoopHotness p).estimate args⟩
    | .error text => ∃ pc, Vm.Ends p (Vm.start args) (.divisionByZero pc) ∧
        ((capturePrototype p allocated).isSome → text = divisionText (p.fetch pc).opcode)

/-- A call answers for the integers that it begins with, or it is refused. -/
def Answers (p : Proto) (allocated : Bool) (supplied : List LuaValue)
    (result : Except String Answer) : Prop :=
  (∃ (args : List Word) (surplus : List LuaValue), supplied = args.map .integer ++ surplus ∧
      args.length = p.numparams ∧ AnswersFor p allocated args result) ∨
    Refuses p .integer supplied result

section answers

variable {p : Proto} {args : List Word} {allocated : Bool} {code : TierCode}
  {equal : Word → Word → Bool} {host : Host} {helper : Word} {optimized : Bool}
  {translated : Translated}

/-- A prototype with a loop is compiled to a graph, one without to a straight function. -/
lemma compilePrototype_eq_ok (h : compilePrototype p helper optimized = .ok translated) :
    (∃ f, compileNumericForPrototype p helper optimized = .ok f ∧ translated = .graph f) ∨
      analyzeLoopHotness p = {} ∧
        ∃ f, compileStraightPrototype p = .ok f ∧ translated = .straight f := by
  unfold compilePrototype at h
  split_ifs at h with hloop
  · rcases hcompile : compileNumericForPrototype p helper optimized with status | f
    · rw [hcompile] at h
      cases h
    · rw [hcompile] at h
      cases h
      exact .inl ⟨f, rfl, rfl⟩
  · rcases hcompile : compileStraightPrototype p with status | f
    · rw [hcompile] at h
      cases h
    · rw [hcompile] at h
      cases h
      exact .inr ⟨analyzeLoopHotness_of_straight (by simpa using hloop), f, rfl, rfl⟩

/-- A snapshot is the prototype itself. -/
lemma capturePrototype_cases (p : Proto) (allocated : Bool) :
    capturePrototype p allocated = some p ∨ capturePrototype p allocated = none := by
  unfold capturePrototype
  split_ifs <;> simp

/-- The site of a runtime exit leads back to its instruction. -/
lemma exitOpcode_of_runtimeExit {status : Status} (hcode : status.code = .runtimeExit)
    (hopcode : (p.fetch (status.location % p.sizecode)).opcode ≠ .other) :
    exitOpcode (some p) status = (p.fetch (status.location % p.sizecode)).opcode := by
  have hcodes : p.code ≠ [] := by
    intro hempty
    have hfetch : p.fetch (status.location % p.sizecode) = default := by
      simp [Proto.fetch, hempty]
    rw [hfetch] at hopcode
    exact hopcode rfl
  exact if_pos ⟨hcode, hcodes⟩

/-- The text of an exit at a division. -/
lemma invocationError_of_divides {status : Status} (hcode : status.code = .runtimeExit)
    (hdivides : (p.fetch (status.location % p.sizecode)).opcode.divides = true) :
    invocationError (exitOpcode (some p) status) status =
      divisionText (p.fetch (status.location % p.sizecode)).opcode := by
  rw [exitOpcode_of_runtimeExit hcode fun hother => by rw [hother] at hdivides; cases hdivides]
  rcases hopcode : (p.fetch (status.location % p.sizecode)).opcode
  all_goals simp [OpCode.divides, hopcode] at hdivides
  all_goals rfl

/-- The plan finds a zero step. -/
def NumericMode.findsZero (equal : Word → Word → Bool) (plan : LoopHotnessPlan) (args : List Word) :
    NumericMode → Bool
  | .integer => plan.hasZeroStep args
  | .float64 => plan.hasZeroFloatStep equal args

/-- A call with values of the mode runs the code. -/
lemma invoke_values (mode : NumericMode) (surplus : List LuaValue)
    (hargs : args.length = p.numparams) :
    invokeCompiledFunction equal (prepareCompiledFunction p mode allocated code)
        (args.map mode.value ++ surplus) =
      if mode.findsZero equal (analyzeLoopHotness p) args then .error stepIsZeroText
      else match code.run args callMachine with
        | .error status _ => .error (invocationError
            (exitOpcode (capturePrototype p allocated) status) status)
        | .ok value m =>
            match mode with
            | .integer => .ok ⟨.integer value, (analyzeLoopHotness p).estimate args⟩
            | .float64 => .ok ⟨.float value, code.measuredBackedges m⟩ := by
  have htake : (args.map mode.value ++ surplus).take p.numparams = args.map mode.value :=
    List.take_left' (by simpa using hargs)
  have hlength : p.numparams ≤ (args.map mode.value ++ surplus).length := by
    rw [List.length_append, List.length_map]
    omega
  simp only [invokeCompiledFunction, prepareCompiledFunction, require, hlength, htake,
    readArguments_values, if_true]
  rcases hzero : mode.findsZero equal (analyzeLoopHotness p) args
  · rcases hrun : code.run args callMachine with ⟨value, m⟩ | ⟨status, m⟩
    all_goals cases mode
    all_goals
      dsimp only [NumericMode.findsZero] at hzero
      simp [bind, Except.bind, hzero, hrun]
  · cases mode
    all_goals
      dsimp only [NumericMode.findsZero] at hzero
      simp [bind, Except.bind, hzero]

/-- A call with integers runs the code, unless the plan finds a zero step. -/
lemma invoke_integers (surplus : List LuaValue) (hargs : args.length = p.numparams) :
    invokeCompiledFunction equal (prepareCompiledFunction p .integer allocated code)
        (args.map .integer ++ surplus) =
      if (analyzeLoopHotness p).hasZeroStep args then .error stepIsZeroText
      else match code.run args callMachine with
        | .error status _ => .error (invocationError
            (exitOpcode (capturePrototype p allocated) status) status)
        | .ok value _ => .ok ⟨.integer value, (analyzeLoopHotness p).estimate args⟩ :=
  invoke_values .integer surplus hargs

/-- Code that agrees with the machine answers as the machine ends. -/
lemma answersFor_of_agrees (surplus : List LuaValue) (hargs : args.length = p.numparams)
    (hzero : (analyzeLoopHotness p).hasZeroStep args = false)
    (hagrees : Agrees p (Vm.start args) (code.run args callMachine)) :
    AnswersFor p allocated args
      (invokeCompiledFunction equal (prepareCompiledFunction p .integer allocated code)
        (args.map .integer ++ surplus)) := by
  unfold AnswersFor
  rw [invoke_integers surplus hargs, hzero, if_neg Bool.false_ne_true, if_neg Bool.false_ne_true]
  rcases hrun : code.run args callMachine with ⟨value, m⟩ | ⟨status, m⟩
  · rw [hrun] at hagrees
    exact ⟨value, hagrees, rfl⟩
  · rw [hrun] at hagrees
    obtain ⟨hcode, -, hends⟩ := hagrees
    refine ⟨_, hends, fun hcaptured => ?_⟩
    rcases capturePrototype_cases p allocated with hsome | hnone
    · rw [hsome]
      exact invocationError_of_divides hcode (Vm.divides_of_ends hends)
    · simp [hnone] at hcaptured

/-- The translation of a prototype ends as the machine does, unless the plan finds a zero step. -/
lemma agrees_of_compilePrototype (hcompile : compilePrototype p helper optimized = .ok translated)
    (hverify : translated.verify = .ok ()) (hstock : p.Stock) (hbyte : p.numparams < 256)
    (hargs : args.length = p.numparams)
    (hhelper : ∀ arguments, host.helper helper arguments = luaIntegerForRemaining arguments)
    (hquiet : ∀ n, host.exitPollRequested n = false)
    (hzero : (analyzeLoopHotness p).hasZeroStep args = false) (m : Machine) :
    ∃ enough, ∀ budget, enough ≤ budget →
      Agrees p (Vm.start args) (translated.interpret host budget args m) := by
  rcases compilePrototype_eq_ok hcompile with ⟨f, hgraph, rfl⟩ | ⟨-, f, hfunction, rfl⟩
  · obtain ⟨l, guarded, haccepted⟩ := acceptedLoop_of_compile hgraph
    refine agrees_of_compileNumericFor hgraph hverify hstock hbyte hargs hhelper hquiet ?_ m
    intro pc registers hpreparation _ hknown
    obtain rfl : l.preparationPc = pc := by
      have heq := haccepted.preparation.symm.trans hpreparation
      cases heq
      rfl
    exact not_done_of_known haccepted hargs hzero hknown
  · obtain ⟨hstart, hyields⟩ := yields_of_compileStraight host hfunction hbyte hargs
    exact ⟨0, fun _ _ => interpret_of_yields (by simpa using hbyte) hverify hstart
      (by simpa using hargs) hyields m⟩

/-- A call with integers answers as the machine ends. -/
lemma answersFor_of_compile (equal : Word → Word → Bool) (allocated : Bool) (surplus : List LuaValue)
    (hcompile : compilePrototype p helper optimized = .ok translated)
    (hverify : translated.verify = .ok ()) (hstock : p.Stock) (hbyte : p.numparams < 256)
    (hargs : args.length = p.numparams)
    (hhelper : ∀ arguments, host.helper helper arguments = luaIntegerForRemaining arguments)
    (hquiet : ∀ n, host.exitPollRequested n = false) :
    ∃ enough, ∀ budget, enough ≤ budget → AnswersFor p allocated args
      (invokeCompiledFunction equal
        (prepareCompiledFunction p .integer allocated
          (translated.tierCode .integer optimized host budget))
        (args.map .integer ++ surplus)) := by
  rcases hzero : (analyzeLoopHotness p).hasZeroStep args
  · obtain ⟨enough, hagrees⟩ := agrees_of_compilePrototype hcompile hverify hstock hbyte hargs hhelper
      hquiet hzero callMachine
    exact ⟨enough, fun budget hbudget =>
      answersFor_of_agrees surplus hargs hzero (hagrees budget hbudget)⟩
  · refine ⟨0, fun budget _ => ?_⟩
    unfold AnswersFor
    rw [invoke_integers surplus hargs, if_pos hzero, if_pos hzero]
    refine ⟨rfl, ?_⟩
    rcases compilePrototype_eq_ok hcompile with ⟨f, hgraph, -⟩ | ⟨hplan, -⟩
    · obtain ⟨l, guarded, haccepted⟩ := acceptedLoop_of_compile hgraph
      exact ends_of_hasZeroStep haccepted hargs hzero
    · rw [hplan] at hzero
      cases hzero

/-- **Calls.** Every call of compiled integer code is answered: as the machine ends for the integers
that it is given, or with the argument that is missing. -/
theorem answers_of_compile (equal : Word → Word → Bool) (allocated : Bool)
    (supplied : List LuaValue)
    (hcompile : compilePrototype p helper optimized = .ok translated)
    (hverify : translated.verify = .ok ()) (hstock : p.Stock) (hbyte : p.numparams < 256)
    (hhelper : ∀ arguments, host.helper helper arguments = luaIntegerForRemaining arguments)
    (hquiet : ∀ n, host.exitPollRequested n = false) :
    ∃ enough, ∀ budget, enough ≤ budget → Answers p allocated supplied
      (invokeCompiledFunction equal
        (prepareCompiledFunction p .integer allocated
          (translated.tierCode .integer optimized host budget))
        supplied) := by
  rcases values_or_refuses p .integer supplied with ⟨args, surplus, hsupplied, hargs⟩ | hrefuses
  · obtain ⟨enough, hanswers⟩ := answersFor_of_compile equal allocated surplus hcompile hverify hstock
      hbyte hargs hhelper hquiet
    rw [hsupplied]
    exact ⟨enough, fun budget hbudget =>
      .inl ⟨args, surplus, rfl, hargs, hanswers budget hbudget⟩⟩
  · exact ⟨0, fun budget _ => .inr (hrefuses equal allocated _)⟩

/-- A call with a wrong argument, to a loop that may divide by zero, is answered as the machine
would. -/
theorem answers_dividingLoop :
    ∃ translated, compilePrototype dividingLoop 0 true = .ok translated ∧
      ∃ enough, ∀ budget, enough ≤ budget → Answers dividingLoop true [.integer 100, .other]
        (invokeCompiledFunction (· == ·) (prepareCompiledFunction dividingLoop .integer true
          (translated.tierCode .integer true countingHost budget)) [.integer 100, .other]) := by
  have hverify : (compilePrototype dividingLoop 0 true >>= fun translated => translated.verify) =
      .ok () := by
    decide +kernel
  obtain ⟨translated, hcompile, hverify⟩ := bind_eq_ok.mp hverify
  exact ⟨translated, hcompile, answers_of_compile _ _ _ hcompile hverify (by decide) (by decide)
    (fun _ => rfl) (fun _ => rfl)⟩

end answers

end UniJit.Lua
