import UniJit.Ir.Arithmetic
import UniJit.Ir.ControlFlowBuilder
import UniJit.Lua.Bytecode

/-!
# The translation of Lua integer functions

A prototype without a loop becomes a straight-line function, one with a single numeric `for` a
control-flow graph. The registers of the Lua machine disappear: while it goes through the bytecode,
the translator keeps for each register the value that the register holds (`values` below), and
where blocks meet, the registers that are still needed are passed as block parameters.

A loop is emitted in one of three shapes. A loop whose step is a constant compares its index with
its limit, with care for indices that wrap; a loop whose step is a parameter counts its remaining
iterations, which a helper computes in advance; and so does a loop with a condition in its body,
which may be an `if`, an `if` with `else`, a `break` or a `return`. In the optimized tier, eight
copies of the body are emitted in a row for the iterations that are certain to take place.

Division by zero is guarded. The site of a guard is the position of its instruction, made unique by
a multiple of the code size.
-/

namespace UniJit.Lua

open UniJit.Ir UniJit.Lib

/-! ## Emitting -/

/-- The state of a translation. -/
structure Emitter (B : Type) where
  builder : B
  nextGuardOrdinal : Nat := 1

/-- A step of a translation, which may fail with a status. -/
abbrev Emit (B : Type) := EStateM Status (Emitter B)

section emit

variable {B : Type} {α : Type}

/-- A call of the builder. -/
def build (call : B → α × B) : Emit B α := fun e =>
  .ok (call e.builder).1 { e with builder := (call e.builder).2 }

/-- A call of the builder that may fail. -/
def attempt (call : B → Except Status B) : Emit B Unit := fun e =>
  match call e.builder with
  | .ok b => .ok () { e with builder := b }
  | .error status => .error status e

/-- Looks at the builder. -/
def inspect (read : B → α) : Emit B α := fun e => .ok (read e.builder) e

/-- `bytecode_error` and `translation_error`. -/
def bytecodeError (pc : Nat) (message : String) : Status := ⟨.invalidArgument, message, pc⟩

/-- Fails unless a condition holds. -/
def check (c : Prop) [Decidable c] (status : Status) : Emit B Unit :=
  if c then pure () else throw status

/-- The site of a guard at an instruction. -/
def floorGuardSite (p : Proto) (pc : Nat) : Emit B Nat := fun e =>
  .ok (e.nextGuardOrdinal * p.sizecode + pc) { e with nextGuardOrdinal := e.nextGuardOrdinal + 1 }

end emit

section straight

variable {B : Type} [ScalarBuilder B] (p : Proto)

/-- Emits a word constant. -/
def emitConstant (value : Word) : Emit B Value := build fun b => ScalarBuilder.constant b value

/-- Emits a binary operation. -/
def emitBinary (opcode : BinaryOpcode) (lhs rhs : Value) : Emit B Value :=
  build fun b => ScalarBuilder.binary b opcode lhs rhs

/-- Emits a unary operation. -/
def emitUnary (opcode : UnaryOpcode) (value : Value) : Emit B Value :=
  build fun b => ScalarBuilder.unary b opcode value

/-- The register is one of the stack's. -/
abbrev validDestination (values : List Value) (r : Nat) : Prop := r < values.length

/-- The register has a value. -/
abbrev validRegister (values : List Value) (r : Nat) : Prop :=
  r < values.length ∧ (values.getD r .invalid).valid

/-- A division after the guard of its divisor. -/
def emitFloor (pc : Nat) (opcode : BinaryOpcode) (lhs rhs : Value) : Emit B Value := do
  let site ← floorGuardSite p pc
  let guard ← build fun b => ScalarBuilder.guardWordNonzero b rhs site
  check guard.valid (bytecodeError pc "unable to guard a floor divisor")
  emitBinary opcode lhs rhs

/-- The code of an arithmetic instruction on its operands. -/
def emitArithmetic (pc : Nat) (opcode : OpCode) (lhs rhs : Value) : Emit B Value :=
  match opcode with
  | .addI | .addK | .add => emitBinary .add lhs rhs
  | .subK | .sub => emitBinary .subtract lhs rhs
  | .mulK | .mul => emitBinary .multiply lhs rhs
  | .modK | .mod => emitFloor p pc .floorModulo lhs rhs
  | .idivK | .idiv => emitFloor p pc .floorDivide lhs rhs
  | .bandK | .band => emitBinary .bitwiseAnd lhs rhs
  | .borK | .bor => emitBinary .bitwiseOr lhs rhs
  | .bxorK | .bxor => emitBinary .bitwiseXor lhs rhs
  | .shr => do
      let amount ← emitUnary .negate rhs
      emitBinary .shiftLeft lhs amount
  | _ => emitBinary .shiftLeft lhs rhs

/-- The call of a metamethod that must follow an arithmetic instruction. -/
def checkFallback (pc stop : Nat) (fallback : OpCode) (message : String) : Emit B Unit :=
  check (pc + 1 < stop ∧ (p.fetch (pc + 1)).opcode = fallback) (bytecodeError pc message)

/-- The cases with two registers. -/
def translateRegisters (pc stop : Nat) (values : List Value) (operandText fallbackText : String) :
    Emit B (List Value × Nat) := do
  let i := p.fetch pc
  check (validDestination values i.A ∧ validRegister values i.B ∧ validRegister values i.C)
    (bytecodeError pc operandText)
  let v ← emitArithmetic p pc i.opcode (values.getD i.B .invalid) (values.getD i.C .invalid)
  checkFallback p pc stop .mmbin fallbackText
  pure (values.set i.A v, pc + 2)

/-- The cases with a register and a constant. -/
def translateConstant (pc stop : Nat) (values : List Value)
    (operandText integerText fallbackText : String) : Emit B (List Value × Nat) := do
  let i := p.fetch pc
  check (validDestination values i.A ∧ validRegister values i.B ∧ i.C < p.k.length)
    (bytecodeError pc operandText)
  match p.integerConstant i.C with
  | none => throw (bytecodeError pc integerText)
  | some value => do
      let rhs ← emitConstant value
      let v ← emitArithmetic p pc i.opcode (values.getD i.B .invalid) rhs
      checkFallback p pc stop .mmbinK fallbackText
      pure (values.set i.A v, pc + 2)

/-- The cases with a register and an immediate. -/
def translateImmediate (pc stop : Nat) (values : List Value) (operandText fallbackText : String) :
    Emit B (List Value × Nat) := do
  let i := p.fetch pc
  check (validDestination values i.A ∧ validRegister values i.B) (bytecodeError pc operandText)
  let source := values.getD i.B .invalid
  let immediate := BitVec.ofInt 64 i.sC
  let v ← match i.opcode with
    | .shlI => do
        let lhs ← emitConstant immediate
        emitArithmetic p pc i.opcode lhs source
    | .shrI => do
        let rhs ← emitConstant (0 - immediate)
        emitArithmetic p pc i.opcode source rhs
    | _ => do
        let rhs ← emitConstant immediate
        emitArithmetic p pc i.opcode source rhs
  checkFallback p pc stop .mmbinI fallbackText
  pure (values.set i.A v, pc + 2)

/-- The cases with one register, which have no fallback. -/
def translateUnary (pc : Nat) (values : List Value) (opcode : UnaryOpcode) :
    Emit B (List Value × Nat) := do
  let i := p.fetch pc
  check (validDestination values i.A ∧ validRegister values i.B)
    (bytecodeError pc "invalid register in unary arithmetic")
  let v ← emitUnary opcode (values.getD i.B .invalid)
  pure (values.set i.A v, pc + 1)

/-- One instruction that writes a register; `unsupported` is the end of the message for any other
one. The answer is what the registers hold then, and the position to go on from. -/
def translateInstruction (unsupported : String) (pc stop : Nat) (values : List Value) :
    Emit B (List Value × Nat) :=
  let i := p.fetch pc
  match i.opcode with
  | .move => do
      check (validDestination values i.A ∧ validRegister values i.B)
        (bytecodeError pc "invalid register in OP_MOVE")
      pure (values.set i.A (values.getD i.B .invalid), pc + 1)
  | .loadI => do
      check (validDestination values i.A) (bytecodeError pc "invalid destination in OP_LOADI")
      let v ← emitConstant (BitVec.ofInt 64 i.sBx)
      pure (values.set i.A v, pc + 1)
  | .loadK => do
      check (validDestination values i.A ∧ i.Bx < p.k.length)
        (bytecodeError pc "invalid operand in OP_LOADK")
      match p.integerConstant i.Bx with
      | none => throw (bytecodeError pc "only integer constants are supported in OP_LOADK")
      | some value => do
          let v ← emitConstant value
          pure (values.set i.A v, pc + 1)
  | .addI => translateImmediate p pc stop values "invalid register in OP_ADDI"
      "OP_ADDI is missing its Lua metamethod fallback"
  | .addK | .subK | .mulK => translateConstant p pc stop values
      "invalid operand in constant arithmetic"
      "constant arithmetic requires an integer constant"
      "constant arithmetic is missing its Lua metamethod fallback"
  | .modK | .idivK => translateConstant p pc stop values
      "invalid operand in constant floor arithmetic"
      "invalid operand in constant floor arithmetic"
      "constant floor arithmetic is missing its Lua metamethod fallback"
  | .bandK | .borK | .bxorK => translateConstant p pc stop values
      "invalid operand in constant bitwise operation"
      "invalid operand in constant bitwise operation"
      "constant bitwise operation is missing its Lua metamethod fallback"
  | .shlI | .shrI => translateImmediate p pc stop values "invalid register in immediate shift"
      "immediate shift is missing its Lua metamethod fallback"
  | .add | .sub | .mul => translateRegisters p pc stop values
      "invalid register in binary arithmetic"
      "binary arithmetic is missing its Lua metamethod fallback"
  | .mod | .idiv => translateRegisters p pc stop values "invalid register in floor arithmetic"
      "floor arithmetic is missing its Lua metamethod fallback"
  | .band | .bor | .bxor => translateRegisters p pc stop values
      "invalid register in binary bitwise operation"
      "binary bitwise operation is missing its Lua metamethod fallback"
  | .shl | .shr => translateRegisters p pc stop values "invalid register in binary shift"
      "binary shift is missing its Lua metamethod fallback"
  | .unm => translateUnary p pc values .negate
  | .bnot => translateUnary p pc values .bitwiseNot
  | _ => throw (bytecodeError pc ("unsupported Lua 5.5 opcode " ++ toString i.code ++ unsupported))

/-- Where a range of bytecode stands, and what is allowed in it. -/
structure RangeRules where
  allowReturn : Bool := true
  /-- The registers of the loop that the range is the body of. -/
  protectedStateBase : Option Nat := none
  returnText : String := "unsupported return in numeric loop"
  unsupported : String := " in numeric loop"

/-- A return with the checks of its own. -/
def translateReturn (pc : Nat) (values : List Value) (c : Prop) [Decidable c] (message : String) :
    Emit B (List Value × Bool) := do
  let r := (p.fetch pc).A
  check (c ∧ validRegister values r) (bytecodeError pc message)
  let recorded := bytecodeError pc "unable to record the Lua return value"
  attempt fun b => (ScalarBuilder.setReturn b (values.getD r .invalid)).mapError fun _ => recorded
  pure (values, true)

/-- `translate_range`: the instructions from `pc` to `stop`, of which there are at most `fuel`. The
answer is what the registers hold then, and whether there was a return. -/
def translateRange (rules : RangeRules) (stop : Nat) :
    Nat → Nat → List Value → Emit B (List Value × Bool)
  | 0, _, values => pure (values, false)
  | fuel + 1, pc, values =>
      if stop ≤ pc then pure (values, false)
      else do
        let i := p.fetch pc
        check (∀ base ∈ rules.protectedStateBase,
            ¬ (i.opcode.writesDestination ∧ base ≤ i.A ∧ i.A ≤ base + 2))
          (bytecodeError pc "numeric for body modifies an internal loop register")
        if i.opcode = .ret1 then
          translateReturn p pc values rules.allowReturn rules.returnText
        else if i.opcode = .ret then
          translateReturn p pc values (rules.allowReturn ∧ i.B = 2 ∧ i.k = false)
            "only one-value fixed Lua returns are supported"
        else do
          let (values, next) ← translateInstruction p rules.unsupported pc stop values
          translateRange rules stop fuel next values

/-- The range from `start` to `stop`. -/
def translate (rules : RangeRules) (start stop : Nat) (values : List Value) :
    Emit B (List Value × Bool) :=
  translateRange p rules stop (stop - start) start values

end straight

/-- What the registers hold at the start: the parameters. -/
def parameterRegisters (p : Proto) (parameter : Nat → Value) : List Value :=
  (List.range p.maxstacksize).map fun r => if r < p.numparams then parameter r else .invalid

/-- The checks that both translations make first. -/
def checkLayout (p : Proto) : Except Status Unit := do
  require (p.isVararg = false) (bytecodeError 0 "vararg Lua functions are not supported")
  require (p.numparams ≤ p.maxstacksize)
    (bytecodeError 0 "Lua prototype has an invalid stack layout")

/-- The rules for a whole function: it returns, and no register is protected. -/
def straightRules : RangeRules where
  returnText := "invalid return register"
  unsupported := ""

/-- `compile_straight_prototype`, up to the function that it hands to the compiler. -/
def compileStraightPrototype (p : Proto) : Except Status Function := do
  checkLayout p
  let builder := FunctionBuilder.create (List.replicate p.numparams .word)
  match translate p straightRules 0 p.sizecode (parameterRegisters p builder.parameter)
      { builder := builder } with
  | .error status _ => throw status
  | .ok (_, returned) e => do
      require returned (bytecodeError p.sizecode "Lua function has no supported return")
      pure e.builder.build

/-! ## The loop and its condition -/

/-- What a register holds before a loop, if it is known: a constant or a parameter. -/
inductive Symbolic
  | unknown
  | constant (value : Word)
  | parameter (index : Nat)
  deriving DecidableEq, Repr

namespace Symbolic

/-- The constant of a register. -/
def constant? : Symbolic → Option Word
  | .constant value => some value
  | _ => none

/-- The symbol of a constant, if it is known. -/
def ofConstant : Option Word → Symbolic
  | some value => .constant value
  | none => .unknown

end Symbolic

/-- `shift_left_word` of the translator. -/
def shiftLeftWord (value amount : Word) : Word :=
  if amount.toInt < 0 then
    let magnitude := 0 - amount
    if 64 ≤ magnitude.toNat then 0 else value >>> magnitude.toNat
  else if 64 ≤ amount.toNat then 0 else value <<< amount.toNat

/-- `bitwise_binary_word`. -/
def bitwiseBinaryWord (opcode : OpCode) (lhs rhs : Word) : Word :=
  if opcode = .band ∨ opcode = .bandK then lhs &&& rhs
  else if opcode = .bor ∨ opcode = .borK then lhs ||| rhs
  else lhs ^^^ rhs

/-- `floor_arithmetic_word`. -/
def floorArithmeticWord (opcode : OpCode) (lhs rhs : Word) : Word :=
  if opcode = .idiv ∨ opcode = .idivK then floorDivideWord lhs rhs else floorModuloWord lhs rhs

section controls

variable (p : Proto)

/-- What an instruction before the loop leaves in its destination; `none` if it writes nothing. -/
def symbolicResult (i : Instruction) (registers : List Symbolic) : Option Symbolic :=
  let source := registers.getD i.B .unknown
  let other := registers.getD i.C .unknown
  match i.opcode with
  | .move => some source
  | .loadI => some (.constant (BitVec.ofInt 64 i.sBx))
  | .loadK => some (.ofConstant (p.integerConstant i.Bx))
  | .bandK | .borK | .bxorK => some (.ofConstant do
      pure (bitwiseBinaryWord i.opcode (← source.constant?) (← p.integerConstant i.C)))
  | .modK | .idivK => some (.ofConstant do
      let value ← source.constant?
      let divisor ← p.integerConstant i.C
      if divisor = 0 then none else pure (floorArithmeticWord i.opcode value divisor))
  | .band | .bor | .bxor => some (.ofConstant do
      pure (bitwiseBinaryWord i.opcode (← source.constant?) (← other.constant?)))
  | .mod | .idiv => some (.ofConstant do
      let value ← source.constant?
      let divisor ← other.constant?
      if divisor = 0 then none else pure (floorArithmeticWord i.opcode value divisor))
  | .shlI => some (.ofConstant do
      pure (shiftLeftWord (BitVec.ofInt 64 i.sC) (← source.constant?)))
  | .shrI => some (.ofConstant do
      pure (shiftLeftWord (← source.constant?) (0 - BitVec.ofInt 64 i.sC)))
  | .shl => some (.ofConstant do
      pure (shiftLeftWord (← source.constant?) (← other.constant?)))
  | .shr => some (.ofConstant do
      pure (shiftLeftWord (← source.constant?) (0 - (← other.constant?))))
  | .unm => some (.ofConstant do pure (0 - (← source.constant?)))
  | .bnot => some (.ofConstant do pure (~~~(← source.constant?)))
  | .mmbin | .mmbinI | .mmbinK => none
  | _ => some .unknown

/-- What the registers hold before the instruction at `pc`. -/
def symbolicRegisters : Nat → List Symbolic
  | 0 => (List.range p.maxstacksize).map fun r =>
      if r < p.numparams then .parameter r else .unknown
  | pc + 1 =>
      let registers := symbolicRegisters pc
      let i := p.fetch pc
      match symbolicResult p i registers with
      | some result => registers.set i.A result
      | none => registers

/-- The operands of a numeric `for`. -/
structure LoopControls where
  start : Symbolic
  limit : Symbolic
  step : Symbolic
  deriving DecidableEq, Repr

/-- `analyze_loop_hotness`, up to the operands of the loop; `analyzeLoopHotness` adds the early exit
of the body. -/
def analyzeLoopControls (preparationPc : Nat) : LoopControls :=
  let registers := symbolicRegisters p preparationPc
  let base := (p.fetch preparationPc).A
  { start := registers.getD base .unknown
    limit := registers.getD (base + 1) .unknown
    step := registers.getD (base + 2) .unknown }

/-- The one `OP_FORPREP` of a prototype. -/
def findPreparation : Except Status Nat :=
  match (List.range p.sizecode).filter fun pc => (p.fetch pc).opcode == .forPrep with
  | [] => .error (bytecodeError 0 "Lua function has no numeric for loop")
  | [pc] => .ok pc
  | _ :: second :: _ => .error (bytecodeError second "only one numeric for loop is supported")

/-- What the guarded part of a body does. -/
inductive GuardedBodyKind
  | conditionalBody
  | conditionalElse
  | break
  | return
  deriving DecidableEq, Repr

/-- Where the parts of a body with a condition are. -/
structure GuardedBodyPlan where
  comparisonPc : Nat
  actionBegin : Nat
  actionEnd : Nat
  alternateBegin : Nat
  continuationBegin : Nat
  kind : GuardedBodyKind
  deriving DecidableEq, Repr

/-- The comparisons the translator knows. -/
def isIntegerComparison : OpCode → Bool
  | .eq | .lt | .le | .eqK | .eqI | .ltI | .leI | .gtI | .geI => true
  | _ => false

/-- The target of the jump at `pc`. -/
def jumpAt (pc : Nat) : Int := (pc : Int) + 1 + (p.fetch pc).sJ

/-- The plan of the body around the comparison at `pc`. -/
def planGuardedBody (loopPc pc : Nat) : Except Status GuardedBodyPlan := do
  require (pc + 1 < loopPc ∧ (p.fetch (pc + 1)).opcode = .jmp)
    (bytecodeError pc "numeric-loop comparison is missing its conditional jump")
  let actionBegin := pc + 2
  require (actionBegin < loopPc ∧ (actionBegin : Int) < jumpAt p (pc + 1) ∧
      jumpAt p (pc + 1) ≤ loopPc)
    (bytecodeError pc "numeric-loop condition has unsupported control flow")
  let target := (jumpAt p (pc + 1)).toNat
  let opcode := (p.fetch actionBegin).opcode
  if opcode = .jmp then do
    require (jumpAt p actionBegin = loopPc + 1)
      (bytecodeError actionBegin "guarded numeric-loop jump is not a structured break")
    (List.range (target - (actionBegin + 1))).forM fun index =>
      require ((p.fetch (actionBegin + 1 + index)).opcode = .close)
        (bytecodeError (actionBegin + 1 + index)
          "structured numeric-loop break has unexpected bytecode")
    pure ⟨pc, actionBegin, target, target, target, .break⟩
  else if opcode = .ret1 ∨ opcode = .ret then do
    require (target = actionBegin + 1)
      (bytecodeError actionBegin "guarded numeric-loop return must be a single return")
    pure ⟨pc, actionBegin, target, target, target, .return⟩
  else if actionBegin ≤ target - 1 ∧ (p.fetch (target - 1)).opcode = .jmp then do
    require ((target : Int) < jumpAt p (target - 1) ∧ jumpAt p (target - 1) ≤ loopPc)
      (bytecodeError (target - 1) "numeric-loop if/else has an invalid merge target")
    pure ⟨pc, actionBegin, target - 1, target, (jumpAt p (target - 1)).toNat, .conditionalElse⟩
  else pure ⟨pc, actionBegin, target, target, target, .conditionalBody⟩

/-- The condition in the body of a loop, if there is one. -/
def findGuardedBody (preparationPc loopPc : Nat) : Except Status (Option GuardedBodyPlan) :=
  match (List.range loopPc).filter fun pc =>
      preparationPc < pc && isIntegerComparison (p.fetch pc).opcode with
  | [] => .ok none
  | pc :: rest => do
      let plan ← planGuardedBody p loopPc pc
      match rest with
      | [] => pure (some plan)
      | second :: _ => throw (bytecodeError second
          "only one guarded condition is supported in a numeric loop")

end controls

end UniJit.Lua
