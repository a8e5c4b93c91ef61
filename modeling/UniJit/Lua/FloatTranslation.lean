import UniJit.Lua.LoopTranslation

/-!
# The translation of Lua Float64 functions

A second translation is for functions whose arguments are all floats. All values are `double`s
here, and the translator keeps with each of them the kind of number that the Lua machine holds in
the register: an integer constant stays an integer there as long as it is only moved, and arithmetic
is accepted if it has a float operand, for then the machine computes with floats as well. A numeric
`for` is accepted if its start or its step is a float, which makes it a float loop. The sign of its
step is looked at once, before the loop, and there are two copies of the loop, one for each sign.

`ofInteger` is the conversion of an integer to a `double`.
-/

namespace UniJit.Lua

open UniJit.Ir UniJit.Lib

/-! ## Numbers -/

/-- What the translator knows of a register. -/
inductive NumericKind
  | undefined | integer | float64
  deriving DecidableEq, Repr

/-- A value of the translation, with the kind of number that the Lua machine holds there. -/
structure TypedValue where
  value : Value := .invalid
  kind : NumericKind := .undefined
  deriving DecidableEq, Repr

/-- `writes_float_destination`. -/
def OpCode.writesFloatDestination : OpCode → Bool
  | .move | .loadI | .loadF | .loadK | .addI | .addK | .subK | .mulK | .divK | .add | .sub | .mul
  | .div | .unm => true
  | _ => false

/-- The operation of `append_float_binary`. -/
def OpCode.floatOpcode : OpCode → BinaryOpcode
  | .add | .addK | .addI => .floatAdd
  | .sub | .subK => .floatSubtract
  | .mul | .mulK => .floatMultiply
  | _ => .floatDivide

/-- The kind of a loaded number. -/
def OpCode.loadedKind : OpCode → NumericKind
  | .loadF => .float64
  | _ => .integer

section straight

variable {B : Type} [ScalarBuilder B] (ofInteger : Word → Word) (p : Proto)

/-- A constant as a `double`, and its kind. -/
def Proto.toDouble (index : Nat) : Option (Word × NumericKind) :=
  match p.k[index]? with
  | some (.integer value) => some (ofInteger value, .integer)
  | some (.float bits) => some (bits, .float64)
  | _ => none

/-- One operand is a Float64, so the operation is one on Float64. -/
abbrev HasFloatOperand (lhs rhs : NumericKind) : Prop := lhs = .float64 ∨ rhs = .float64

/-- Emits a Float64 constant. -/
def emitFloat64Constant (bits : Word) : Emit B Value :=
  build fun b => ScalarBuilder.float64Constant b bits

/-- The register has a value. -/
abbrev validTyped (values : List TypedValue) (r : Nat) : Prop :=
  r < values.length ∧ (values.getD r {}).value.valid

/-- The register has a value that is a number. -/
abbrev isNumber (values : List TypedValue) (r : Nat) : Prop :=
  validTyped values r ∧ (values.getD r {}).kind ≠ .undefined

/-- The refusal of arithmetic on two integers. -/
def requiresFloatOperand : String := "Float64 arithmetic requires at least one Float64 operand"

/-- The case of `OP_ADDI`. -/
def translateFloatImmediate (pc stop : Nat) (values : List TypedValue) :
    Emit B (List TypedValue × Nat) := do
  let i := p.fetch pc
  check (i.A < values.length ∧ validTyped values i.B)
    (bytecodeError pc "invalid register in OP_ADDI")
  let source := values.getD i.B {}
  check (source.kind = .float64) (bytecodeError pc requiresFloatOperand)
  let immediate ← emitFloat64Constant (ofInteger (BitVec.ofInt 64 i.sC))
  let v ← emitBinary i.opcode.floatOpcode source.value immediate
  checkFallback p pc stop .mmbinI "OP_ADDI is missing its Lua metamethod fallback"
  pure (values.set i.A ⟨v, .float64⟩, pc + 2)

/-- The cases with a register and a constant. -/
def translateFloatConstant (pc stop : Nat) (values : List TypedValue) :
    Emit B (List TypedValue × Nat) := do
  let i := p.fetch pc
  check (i.A < values.length ∧ validTyped values i.B ∧ i.C < p.k.length)
    (bytecodeError pc "invalid operand in constant arithmetic")
  match p.toDouble ofInteger i.C with
  | none => throw (bytecodeError pc "Float64 constant arithmetic requires a number")
  | some (bits, kind) => do
      let source := values.getD i.B {}
      check (i.opcode = .divK ∨ HasFloatOperand source.kind kind)
        (bytecodeError pc requiresFloatOperand)
      let constant ← emitFloat64Constant bits
      let v ← emitBinary i.opcode.floatOpcode source.value constant
      checkFallback p pc stop .mmbinK "constant arithmetic is missing its Lua metamethod fallback"
      pure (values.set i.A ⟨v, .float64⟩, pc + 2)

/-- The cases with two registers. -/
def translateFloatRegisters (pc stop : Nat) (values : List TypedValue) :
    Emit B (List TypedValue × Nat) := do
  let i := p.fetch pc
  check (i.A < values.length ∧ validTyped values i.B ∧ validTyped values i.C)
    (bytecodeError pc "invalid register in binary arithmetic")
  let lhs := values.getD i.B {}
  let rhs := values.getD i.C {}
  check (i.opcode = .div ∨ HasFloatOperand lhs.kind rhs.kind)
    (bytecodeError pc requiresFloatOperand)
  let v ← emitBinary i.opcode.floatOpcode lhs.value rhs.value
  checkFallback p pc stop .mmbin "binary arithmetic is missing its Lua metamethod fallback"
  pure (values.set i.A ⟨v, .float64⟩, pc + 2)

/-- One instruction that writes a register. -/
def translateFloatInstruction (inLoop : Bool) (pc stop : Nat) (values : List TypedValue) :
    Emit B (List TypedValue × Nat) :=
  let i := p.fetch pc
  match i.opcode with
  | .move => do
      check (i.A < values.length ∧ validTyped values i.B)
        (bytecodeError pc "invalid register in OP_MOVE")
      pure (values.set i.A (values.getD i.B {}), pc + 1)
  | .loadI | .loadF => do
      check (i.A < values.length) (bytecodeError pc "invalid numeric load destination")
      let v ← emitFloat64Constant (ofInteger (BitVec.ofInt 64 i.sBx))
      pure (values.set i.A ⟨v, i.opcode.loadedKind⟩, pc + 1)
  | .loadK => do
      check (i.A < values.length ∧ i.Bx < p.k.length)
        (bytecodeError pc "invalid operand in OP_LOADK")
      match p.toDouble ofInteger i.Bx with
      | none => throw (bytecodeError pc "Float64 compilation requires a number")
      | some (bits, kind) => do
          let v ← emitFloat64Constant bits
          pure (values.set i.A ⟨v, kind⟩, pc + 1)
  | .addI => translateFloatImmediate ofInteger p pc stop values
  | .addK | .subK | .mulK | .divK => translateFloatConstant ofInteger p pc stop values
  | .add | .sub | .mul | .div => translateFloatRegisters p pc stop values
  | .unm => do
      check (i.A < values.length ∧ validTyped values i.B)
        (bytecodeError pc "invalid register in Float64 OP_UNM")
      let source := values.getD i.B {}
      check (source.kind = .float64)
        (bytecodeError pc "Float64 unary minus requires a Float64 operand")
      let v ← emitUnary .floatNegate source.value
      pure (values.set i.A ⟨v, .float64⟩, pc + 1)
  | _ => throw (bytecodeError pc ("unsupported Lua 5.5 opcode " ++ toString i.code ++
      if inLoop then " in Float64 numeric loop" else ""))

/-- Translates a return, converting an integer. -/
def translateFloatReturn (allowReturn : Bool) (pc : Nat) (values : List TypedValue) :
    Emit B (List TypedValue × Bool) := do
  let i := p.fetch pc
  check (allowReturn ∧ (i.opcode = .ret → i.B = 2 ∧ i.k = false) ∧ validTyped values i.A)
    (bytecodeError pc "only one-value fixed Float64 returns are supported")
  let returned := values.getD i.A {}
  check (returned.kind = .float64) (bytecodeError pc "compiled result is not Float64")
  let recorded := bytecodeError pc "unable to record the Lua return value"
  attempt fun b => (ScalarBuilder.setReturn b returned.value).mapError fun _ => recorded
  pure (values, true)

/-- `translate_float_range`: the instructions from `pc` to `stop`, of which there are at most `fuel`. -/
def translateFloatRange (allowReturn : Bool) (protectedStateBase : Option Nat) (stop : Nat) :
    Nat → Nat → List TypedValue → Emit B (List TypedValue × Bool)
  | 0, _, values => pure (values, false)
  | fuel + 1, pc, values =>
      if stop ≤ pc then pure (values, false)
      else do
        let i := p.fetch pc
        check (∀ base ∈ protectedStateBase,
            ¬(i.opcode.writesFloatDestination ∧ base ≤ i.A ∧ i.A ≤ base + 2))
          (bytecodeError pc "Float64 numeric for body modifies an internal loop register")
        if i.opcode = .ret1 ∨ i.opcode = .ret then translateFloatReturn p allowReturn pc values
        else do
          let (values, next) ←
            translateFloatInstruction ofInteger p protectedStateBase.isSome pc stop values
          translateFloatRange allowReturn protectedStateBase stop fuel next values

/-- The range from `start` to `stop`. -/
def translateFloat (allowReturn : Bool) (protectedStateBase : Option Nat) (start stop : Nat)
    (values : List TypedValue) : Emit B (List TypedValue × Bool) :=
  translateFloatRange ofInteger p allowReturn protectedStateBase stop (stop - start) start values

end straight

/-! ## Loops -/

/-- A float loop in its prototype, with what the registers hold before it. -/
structure FloatLoopSite where
  preparationPc : Nat
  loopPc : Nat
  stateBase : Nat
  registers : List TypedValue
  /-- The registers that are passed from block to block. -/
  carried : List Nat

namespace FloatLoopSite

variable (l : FloatLoopSite)

/-- The loop's start. -/
def start : Value := (l.registers.getD l.stateBase {}).value
/-- The loop's limit. -/
def limit : Value := (l.registers.getD (l.stateBase + 1) {}).value
/-- The loop's step. -/
def step : Value := (l.registers.getD (l.stateBase + 2) {}).value

/-- A register of the loop's state. -/
def isState (r : Nat) : Prop := l.stateBase ≤ r ∧ r ≤ l.stateBase + 2

/-- Whether a register is of the loop's state can be computed. -/
instance (r : Nat) : Decidable (l.isState r) := by
  unfold isState
  infer_instance

/-- `carried_kinds`. -/
def carriedKind (r : Nat) : NumericKind :=
  if l.isState r then .float64 else (l.registers.getD r {}).kind

/-- The kinds behind the loop, whose own registers are not used any more. -/
def exitKind (r : Nat) : NumericKind := if l.isState r then .undefined else l.carriedKind r

/-- The arguments of the edge that enters the loop: the machine keeps the limit, the step and the
index in the three registers. -/
def initialArguments : List Value :=
  l.carried.map fun r =>
    if r = l.stateBase then l.limit
    else if r = l.stateBase + 1 then l.step
    else if r = l.stateBase + 2 then l.start
    else (l.registers.getD r {}).value

/-- The arguments of the edge that skips the loop. -/
def skippedArguments : List Value := l.carried.map fun r => (l.registers.getD r {}).value

/-- `collect_carried`. -/
def collectCarried (values : List TypedValue) : EmitGraph (List Value) := do
  check (∀ r ∈ l.carried, (values.getD r {}).value.valid)
    (bytecodeError l.loopPc "Float64 numeric loop has an undefined carried register")
  check (∀ r ∈ l.carried, (values.getD r {}).kind = l.carriedKind r)
    (bytecodeError l.loopPc "Float64 numeric loop changes a carried Lua numeric tag")
  pure (l.carried.map fun r => (values.getD r {}).value)

/-- `next_arguments`. -/
def nextArguments (completed : List Value) (index : Value) : List Value :=
  (l.carried.zip completed).map fun (r, v) => if r = l.stateBase + 2 then index else v

end FloatLoopSite

/-- Creates a block with Float64 parameters. -/
def createFloatBlock (count : Nat) : EmitGraph Block :=
  build fun b => b.createBlock (List.replicate count .float64)

section loops

variable (ofInteger : Word → Word) (p : Proto) (l : FloatLoopSite)

/-- What the registers hold at the start of a block, with their kinds. -/
def floatBlockRegisters (kind : Nat → NumericKind) (block : Block) :
    EmitGraph (List TypedValue) :=
  inspect fun b => (List.range p.maxstacksize).map fun r =>
    match l.carried.idxOf? r with
    | some index => ⟨b.blockParameter block index, kind r⟩
    | none => {}

/-- The ways into the two copies of the loop. -/
def emitFloatEntries (positive nonpositive positiveDispatch nonpositiveDispatch exit : Block) :
    EmitGraph Unit := do
  let zeroFloat ← emitFloat64Constant 0
  let zeroWord ← emitConstant 0
  let stepPositive ← emitBinary .floatLessThan zeroFloat l.step
  emitBranch stepPositive positive [] nonpositive []
  setInsertionBlock positive
  let passed ← emitBinary .floatLessThan l.limit l.start
  let enters ← emitBinary .equal passed zeroWord
  emitBranch enters positiveDispatch l.initialArguments exit l.skippedArguments
  setInsertionBlock nonpositive
  let passed ← emitBinary .floatLessThan l.start l.limit
  let enters ← emitBinary .equal passed zeroWord
  emitBranch enters nonpositiveDispatch l.initialArguments exit l.skippedArguments

/-- The index of each further copy of the body. -/
def emitIndices (step : Value) : Nat → Value → EmitGraph (List Value)
  | 0, _ => pure []
  | n + 1, last => do
      let index ← emitBinary .floatAdd last step
      let rest ← emitIndices step n index
      pure (index :: rest)

/-- An order in the direction of the loop. -/
def emitFloatOrdered (positive : Bool) (lhs rhs : Value) : EmitGraph Value :=
  if positive then emitBinary .floatLessEqual lhs rhs else emitBinary .floatLessEqual rhs lhs

/-- The choice between eight copies and one. -/
def emitFloatDispatch (dispatch : Block) (unrolled : Option Block) (scalar : Block)
    (positive : Bool) (site : Nat) : EmitGraph Unit := do
  setInsertionBlock dispatch
  let polled ← build fun b => b.safepoint site
  check polled.valid ⟨.invalidArgument, "unable to insert a Float64 loop safepoint", 0⟩
  let arguments ← blockArguments dispatch l.carried.length
  match unrolled with
  | none => emitJump scalar arguments
  | some unrolled => do
      let values ← blockRegisters p l.carried dispatch
      let index := values.getD (l.stateBase + 2) .invalid
      let indices ← emitIndices (values.getD (l.stateBase + 1) .invalid) 7 index
      let hasFullGroup ← emitFloatOrdered positive (indices.getLastD index)
        (values.getD l.stateBase .invalid)
      emitBranch hasFullGroup unrolled (arguments ++ indices) scalar arguments

/-- Copies of the body; the index of each further copy is a parameter of the block. -/
def emitFloatCopies (iteration : Block) : Nat → Nat → List TypedValue →
    EmitGraph (List TypedValue)
  | 0, _, values => pure values
  | n + 1, parameter, values => do
      let (values, _) ←
        translateFloat ofInteger p false (some l.stateBase) (l.preparationPc + 1) l.loopPc values
      if n = 0 then pure values
      else do
        let index ← inspect fun b => b.blockParameter iteration parameter
        emitFloatCopies iteration n (parameter + 1)
          (values.modify (l.stateBase + 2) fun typed => { typed with value := index })

/-- `emit_iteration`: a block of copies of the body, and the end of the iteration. -/
def emitFloatIteration (iteration dispatch exit : Block) (positive : Bool) (count : Nat) :
    EmitGraph Unit := do
  setInsertionBlock iteration
  let values ← floatBlockRegisters p l l.carriedKind iteration
  let values ← emitFloatCopies ofInteger p l iteration count l.carried.length values
  let completed ← l.collectCarried values
  let nextIndex ← emitBinary .floatAdd (values.getD (l.stateBase + 2) {}).value
    (values.getD (l.stateBase + 1) {}).value
  let continues ← emitFloatOrdered positive nextIndex (values.getD l.stateBase {}).value
  emitBranch continues dispatch (l.nextArguments completed nextIndex) exit completed

/-- The loop behind the guard of its step. -/
def emitFloatLoop (optimized : Bool) : EmitGraph Unit := do
  let count := l.carried.length
  let positiveEntry ← createFloatBlock 0
  let nonpositiveEntry ← createFloatBlock 0
  let positiveDispatch ← createFloatBlock count
  let nonpositiveDispatch ← createFloatBlock count
  let unrolled ← if optimized then do
      let positive ← createFloatBlock (count + 7)
      let nonpositive ← createFloatBlock (count + 7)
      pure (some (positive, nonpositive))
    else pure none
  let positiveScalar ← createFloatBlock count
  let nonpositiveScalar ← createFloatBlock count
  let exit ← createFloatBlock count
  check ((∀ block ∈ [positiveEntry, nonpositiveEntry, positiveDispatch, nonpositiveDispatch,
        positiveScalar, nonpositiveScalar, exit], block.valid) ∧
      ∀ blocks ∈ unrolled, blocks.1.valid ∧ blocks.2.valid)
    ⟨.resourceExhausted, "unable to allocate Float64 numeric-loop blocks", 0⟩
  emitFloatEntries l positiveEntry nonpositiveEntry positiveDispatch nonpositiveDispatch exit
  emitFloatDispatch p l positiveDispatch (unrolled.map (·.1)) positiveScalar true l.preparationPc
  emitFloatDispatch p l nonpositiveDispatch (unrolled.map (·.2)) nonpositiveScalar false
    (2 * p.sizecode + l.preparationPc)
  match unrolled with
  | none => pure ()
  | some (positive, nonpositive) => do
      emitFloatIteration ofInteger p l positive positiveDispatch exit true 8
      emitFloatIteration ofInteger p l nonpositive nonpositiveDispatch exit false 8
  emitFloatIteration ofInteger p l positiveScalar positiveDispatch exit true 1
  emitFloatIteration ofInteger p l nonpositiveScalar nonpositiveDispatch exit false 1
  setInsertionBlock exit
  let values ← floatBlockRegisters p l l.exitKind exit
  let (_, returned) ← translateFloat ofInteger p true none (l.loopPc + 1) p.sizecode values
  check returned (bytecodeError p.sizecode "Float64 numeric loop has no supported return")

end loops

/-! ## Prototypes -/

/-- The registers that `note_register_reads` notes for an instruction. -/
def Instruction.floatReads (i : Instruction) : List Nat :=
  match i.opcode with
  | .move | .addI | .addK | .subK | .mulK | .divK | .unm => [i.B]
  | .add | .sub | .mul | .div => [i.B, i.C]
  | .ret | .ret1 => [i.A]
  | _ => []

section prototypes

variable (ofInteger : Word → Word) (p : Proto)

/-- `needed_registers`. -/
def floatRegisterIsNeeded (preparationPc loopPc stateBase r : Nat) : Bool :=
  ((List.range p.sizecode).any fun pc =>
      preparationPc < pc && pc != loopPc && (p.fetch pc).floatReads.contains r) ||
    (stateBase ≤ r && r ≤ stateBase + 2)

/-- The registers that the blocks of a Float64 loop pass on. -/
def floatCarriedRegisters (preparationPc loopPc stateBase : Nat) (registers : List TypedValue) :
    List Nat :=
  (List.range registers.length).filter fun r =>
    (registers.getD r {}).value.valid && floatRegisterIsNeeded p preparationPc loopPc stateBase r

/-- The registers at the entry. -/
def floatParameterRegisters (parameter : Nat → Value) : List TypedValue :=
  (List.range p.maxstacksize).map fun r =>
    if r < p.numparams then ⟨parameter r, .float64⟩ else {}

/-- The guard of the step; its site is the position of the preparation, made unique. -/
def emitStepGuard (preparationPc : Nat) (step : Value) : EmitGraph Unit := do
  let guard ← build fun b =>
    ScalarBuilder.guardFloat64Nonzero b step (p.sizecode + preparationPc)
  check guard.valid (bytecodeError preparationPc "unable to guard a Float64 loop step")

/-- The code before the loop, the guard of the step, and the loop. -/
def emitFloatNumericFor (optimized : Bool) (preparationPc loopPc stateBase : Nat)
    (registers : List TypedValue) : EmitGraph Unit := do
  let (registers, _) ← translateFloat ofInteger p false none 0 preparationPc registers
  check (isNumber registers stateBase ∧ isNumber registers (stateBase + 1) ∧
      isNumber registers (stateBase + 2))
    (bytecodeError preparationPc "Float64 numeric loop has undefined controls")
  check ((registers.getD stateBase {}).kind = .float64 ∨
      (registers.getD (stateBase + 2) {}).kind = .float64)
    (bytecodeError preparationPc "compile_float requires a Float64 loop start or step")
  let l : FloatLoopSite :=
    { preparationPc := preparationPc
      loopPc := loopPc
      stateBase := stateBase
      registers := registers
      carried := floatCarriedRegisters p preparationPc loopPc stateBase registers }
  emitStepGuard p preparationPc l.step
  emitFloatLoop ofInteger p l optimized

/-- The one `OP_FORPREP` of a prototype. -/
def findFloatPreparation : Except Status Nat :=
  match (List.range p.sizecode).filter fun pc => (p.fetch pc).opcode == .forPrep with
  | [] => .error (bytecodeError 0 "Lua function has no Float64 numeric for loop")
  | [pc] => .ok pc
  | _ :: second :: _ =>
      .error (bytecodeError second "only one Float64 numeric for loop is supported")

/-- `compile_float64_numeric_for_prototype`, up to the graph that it hands to the compiler. -/
def compileFloat64NumericForPrototype (optimized : Bool) : Except Status ControlFlowFunction := do
  let preparationPc ← findFloatPreparation p
  let preparation := p.fetch preparationPc
  let loopPc := preparationPc + preparation.Bx + 1
  require (loopPc < p.sizecode ∧ (p.fetch loopPc).opcode = .forLoop ∧
      (p.fetch loopPc).Bx = loopPc - preparationPc)
    (bytecodeError preparationPc "Float64 numeric for loop has malformed control flow")
  require (preparation.A + 2 < p.maxstacksize ∧ (p.fetch loopPc).A = preparation.A)
    (bytecodeError preparationPc "Float64 numeric for loop has invalid state registers")
  let builder := ControlFlowBuilder.create (List.replicate p.numparams .float64)
  match emitFloatNumericFor ofInteger p optimized preparationPc loopPc preparation.A
      (floatParameterRegisters p builder.parameter) { builder := builder } with
  | .error status _ => throw status
  | .ok _ e => pure e.builder.build

/-- The straight-line half of `compile_float64_prototype`, up to the function. -/
def compileFloat64StraightPrototype : Except Status Function := do
  let builder := FunctionBuilder.create (List.replicate p.numparams .float64)
  match translateFloat ofInteger p true none 0 p.sizecode
      (floatParameterRegisters p builder.parameter) { builder := builder } with
  | .error status _ => throw status
  | .ok (_, returned) e => do
      require returned (bytecodeError p.sizecode "Lua function has no supported return")
      pure e.builder.build

/-- `compile_float64_prototype`, up to what it hands to the compiler. -/
def compileFloat64Prototype (optimized : Bool) : Except Status Translated := do
  checkLayout p
  if (List.range p.sizecode).any fun pc => (p.fetch pc).opcode == .forPrep then
    (compileFloat64NumericForPrototype ofInteger p optimized).map .graph
  else (compileFloat64StraightPrototype ofInteger p).map .straight

end prototypes

end UniJit.Lua
