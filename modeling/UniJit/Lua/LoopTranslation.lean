import UniJit.Lua.Translation

/-!
# The translation of Lua numeric loops

The graphs of the three shapes of a numeric `for`, and `compilePrototype`, which chooses between
them and the straight-line translation. The blocks of a loop are created first and then filled one
by one; what the registers hold at the start of a block are its parameters (`blockRegisters`).
-/

namespace UniJit.Lua

open UniJit.Ir UniJit.Lib

/-! ## Blocks -/

/-- An emission into a graph. -/
abbrev EmitGraph := Emit ControlFlowBuilder

/-- Creates a block with word parameters. -/
def createBlock (count : Nat) : EmitGraph Block :=
  build fun b => b.createBlock (List.replicate count .word)

/-- Creates several blocks with as many word parameters. -/
def createBlocks : Nat → Nat → EmitGraph (List Block)
  | 0, _ => pure []
  | n + 1, count => do
      let block ← createBlock count
      let blocks ← createBlocks n count
      pure (block :: blocks)

/-- Moves the insertion point, or fails. -/
def setInsertionBlock (block : Block) : EmitGraph Unit := attempt fun b => b.setInsertionBlock block

/-- Ends the block with a jump, or fails. -/
def emitJump (target : Block) (arguments : List Value) : EmitGraph Unit :=
  attempt fun b => b.jump target arguments

/-- Ends the block with a branch, or fails. -/
def emitBranch (condition : Value) (trueTarget : Block) (trueArguments : List Value)
    (falseTarget : Block) (falseArguments : List Value) : EmitGraph Unit :=
  attempt fun b => b.branch condition trueTarget trueArguments falseTarget falseArguments

/-- Emits a safepoint at a program counter. -/
def emitSafepoint (pc : Nat) (message : String) : EmitGraph Unit := do
  let v ← build fun b => b.safepoint pc
  check v.valid (bytecodeError pc message)

/-- The parameters of a block. -/
def blockArguments (block : Block) (count : Nat) : EmitGraph (List Value) :=
  inspect fun b => (List.range count).map (b.blockParameter block)

/-- What the registers hold at the start of a block whose parameters are the registers `carried`,
which are distinct. -/
def blockRegisters (p : Proto) (carried : List Nat) (block : Block) : EmitGraph (List Value) :=
  inspect fun b => (List.range p.maxstacksize).map fun r =>
    match carried.idxOf? r with
    | some index => b.blockParameter block index
    | none => .invalid

/-- A numeric `for` in its prototype, with what the registers hold before it. -/
structure LoopSite where
  preparationPc : Nat
  loopPc : Nat
  stateBase : Nat
  registers : List Value
  /-- The registers that are passed from block to block. -/
  carried : List Nat

namespace LoopSite

variable (l : LoopSite)

/-- The loop's start. -/
def start : Value := l.registers.getD l.stateBase .invalid
/-- The loop's limit. -/
def limit : Value := l.registers.getD (l.stateBase + 1) .invalid
/-- The loop's step. -/
def step : Value := l.registers.getD (l.stateBase + 2) .invalid

/-- The arguments of the edge that enters the loop: the index is the start. -/
def initialArguments : List Value :=
  l.carried.map fun r => if r = l.stateBase + 2 then l.start else l.registers.getD r .invalid

/-- The arguments of the edge that skips the loop. -/
def skippedArguments : List Value := l.carried.map fun r => l.registers.getD r .invalid

/-- The carried registers at the end of an iteration. -/
def completedRegisters (values : List Value) (message : String) : EmitGraph (List Value) := do
  check (∀ r ∈ l.carried, (values.getD r .invalid).valid) (bytecodeError l.loopPc message)
  pure (l.carried.map fun r => values.getD r .invalid)

/-- The carried registers with another index. -/
def withIndex (completed : List Value) (index : Value) : List Value :=
  (l.carried.zip completed).map fun (r, v) => if r = l.stateBase + 2 then index else v

/-- A body does not return and does not write the loop's state. -/
def bodyRules : RangeRules where
  allowReturn := false
  protectedStateBase := some l.stateBase

end LoopSite

section loops

variable (p : Proto) (l : LoopSite)

/-- The code after the loop. -/
def emitExit (exit : Block) (message : String) : EmitGraph Unit := do
  setInsertionBlock exit
  let values ← blockRegisters p l.carried exit
  let (_, returned) ← translate p {} (l.loopPc + 1) p.sizecode values
  check returned (bytecodeError p.sizecode message)

/-- The number of further iterations, which a helper at this address computes. -/
def emitRemaining (helper : Word) (message : String) : EmitGraph Value := do
  let remaining ← build fun b => b.call helper [l.start, l.limit, l.step]
  check remaining.valid (bytecodeError l.preparationPc message)
  pure remaining

/-- The way into a loop whose step is not known: its sign decides which bound is compared. -/
def emitSignedEntry (positive nonpositive negative dispatch exit : Block)
    (initial : List Value) : EmitGraph Unit := do
  let zero ← emitConstant 0
  let stepIsPositive ← emitBinary .lessThan zero l.step
  emitBranch stepIsPositive positive [] nonpositive []
  setInsertionBlock positive
  let ascends ← emitBinary .lessEqual l.start l.limit
  emitBranch ascends dispatch initial exit l.skippedArguments
  setInsertionBlock nonpositive
  let stepIsNegative ← emitBinary .lessThan l.step zero
  emitBranch stepIsNegative negative [] exit l.skippedArguments
  setInsertionBlock negative
  let descends ← emitBinary .lessEqual l.limit l.start
  emitBranch descends dispatch initial exit l.skippedArguments

/-- The way into a loop whose step has a known sign. -/
def emitKnownEntry (ascending : Bool) (dispatch exit : Block) (initial : List Value) :
    EmitGraph Unit := do
  let enters ← if ascending then emitBinary .lessEqual l.start l.limit
    else emitBinary .lessEqual l.limit l.start
  emitBranch enters dispatch initial exit l.skippedArguments

/-- The choice between eight copies and one, by the number of remaining iterations. It is unsigned,
so that a negative word is large. -/
def emitUnrollChoice (dispatch check unrolled scalar : Block) : EmitGraph Unit := do
  let count := l.carried.length + 1
  let arguments ← blockArguments dispatch count
  let remaining ← inspect fun b => b.blockParameter dispatch l.carried.length
  let zero ← emitConstant 0
  let isLarge ← emitBinary .lessThan remaining zero
  emitBranch isLarge unrolled arguments check arguments
  setInsertionBlock check
  let arguments ← blockArguments check count
  let remaining ← inspect fun b => b.blockParameter check l.carried.length
  let seven ← emitConstant 7
  let hasFullGroup ← emitBinary .lessEqual seven remaining
  emitBranch hasFullGroup unrolled arguments scalar arguments

/-! ## A condition in the body -/

/-- The value of the condition. -/
def comparisonValue (pc : Nat) (values : List Value) : EmitGraph Value := do
  let i := p.fetch pc
  let requires := bytecodeError pc "guarded numeric-loop comparison requires integer operands"
  check (validRegister values i.A) requires
  let lhs := values.getD i.A .invalid
  let rhs ← match i.opcode with
    | .eq | .lt | .le => do
        check (validRegister values i.B) requires
        pure (values.getD i.B .invalid)
    | .eqK =>
        match p.integerConstant i.B with
        | none => throw requires
        | some value => emitConstant value
    | _ => emitConstant (BitVec.ofInt 64 i.sB)
  let relation ← match i.opcode with
    | .lt | .ltI => emitBinary .lessThan lhs rhs
    | .le | .leI => emitBinary .lessEqual lhs rhs
    | .gtI => emitBinary .lessThan rhs lhs
    | .geI => emitBinary .lessEqual rhs lhs
    | _ => emitBinary .equal lhs rhs
  check relation.valid requires
  pure relation

/-- The refusal of a carried register without a value. -/
def undefinedCarried : String := "guarded numeric loop has an undefined carried register"

/-- The carried registers and the number of remaining iterations. -/
def countedArguments (values : List Value) (remaining : Value) : EmitGraph (List Value) := do
  let completed ← l.completedRegisters values undefinedCarried
  pure (completed ++ [remaining])

/-- The block of the action: what is done when the condition holds. -/
def emitAction (plan : GuardedBodyPlan) (action merge exit : Block) : EmitGraph Unit := do
  setInsertionBlock action
  let values ← blockRegisters p l.carried action
  let remaining ← inspect fun b => b.blockParameter action l.carried.length
  match plan.kind with
  | .conditionalBody | .conditionalElse => do
      let (values, _) ← translate p l.bodyRules plan.actionBegin plan.actionEnd values
      let arguments ← countedArguments l values remaining
      emitJump merge arguments
  | .break => do
      let arguments ← l.completedRegisters values undefinedCarried
      emitJump exit arguments
  | .return => do
      let (_, returned) ← translate p { l.bodyRules with allowReturn := true }
        plan.actionBegin plan.actionEnd values
      check returned
        (bytecodeError plan.actionBegin "guarded numeric-loop return was not emitted")

/-- The block of the alternative. -/
def emitAlternate (plan : GuardedBodyPlan) (alternate merge : Block) : EmitGraph Unit := do
  setInsertionBlock alternate
  let values ← blockRegisters p l.carried alternate
  let remaining ← inspect fun b => b.blockParameter alternate l.carried.length
  let values ← if plan.kind = .conditionalElse then do
      let (values, _) ← translate p l.bodyRules plan.alternateBegin plan.continuationBegin values
      pure values
    else pure values
  let arguments ← countedArguments l values remaining
  emitJump merge arguments

/-- The rest of the body, and the end of the iteration. -/
def emitMerge (plan : GuardedBodyPlan) (merge continuation exit : Block) (checkRemaining : Bool) :
    EmitGraph Unit := do
  setInsertionBlock merge
  let values ← blockRegisters p l.carried merge
  let (values, _) ← translate p l.bodyRules plan.continuationBegin l.loopPc values
  let remaining ← inspect fun b => b.blockParameter merge l.carried.length
  let index := values.getD (l.stateBase + 2) .invalid
  check index.valid (bytecodeError l.loopPc "guarded numeric loop lost its induction state")
  let nextIndex ← emitBinary .add index l.step
  let one ← emitConstant 1
  let nextRemaining ← emitBinary .subtract remaining one
  let completed ← l.completedRegisters values undefinedCarried
  let next := l.withIndex completed nextIndex ++ [nextRemaining]
  if checkRemaining then emitBranch remaining continuation next exit completed
  else emitJump continuation next

/-- One iteration of a body with a condition. -/
def emitIteration (plan : GuardedBodyPlan) (exit iteration continuation : Block)
    (checkRemaining : Bool) : EmitGraph Unit := do
  setInsertionBlock iteration
  let values ← blockRegisters p l.carried iteration
  let (values, _) ← translate p l.bodyRules (l.preparationPc + 1) plan.comparisonPc values
  let relation ← comparisonValue p plan.comparisonPc values
  let remaining ← inspect fun b => b.blockParameter iteration l.carried.length
  let arguments ← countedArguments l values remaining
  let action ← createBlock (l.carried.length + 1)
  let alternate ← createBlock (l.carried.length + 1)
  let merge ← createBlock (l.carried.length + 1)
  check (action.valid ∧ alternate.valid ∧ merge.valid)
    ⟨.resourceExhausted, "unable to allocate guarded Lua iteration blocks", 0⟩
  if (p.fetch plan.comparisonPc).k = false then
    emitBranch relation action arguments alternate arguments
  else emitBranch relation alternate arguments action arguments
  emitAction p l plan action merge exit
  emitAlternate p l plan alternate merge
  emitMerge p l plan merge continuation exit checkRemaining

/-- The unrolled iterations, each of which goes on to the next one. -/
def emitIterations (plan : GuardedBodyPlan) (exit dispatch : Block) : List Block → EmitGraph Unit
  | [] => pure ()
  | [last] => emitIteration p l plan exit last dispatch true
  | iteration :: next :: rest => do
      emitIteration p l plan exit iteration next false
      emitIterations plan exit dispatch (next :: rest)

/-- A loop with a condition in its body. -/
def emitGuardedLoop (helper : Word) (optimized : Bool) (step : Symbolic) (plan : GuardedBodyPlan) :
    EmitGraph Unit := do
  let count := l.carried.length + 1
  let dispatch ← createBlock count
  let checks ← createBlocks (if optimized then 1 else 0) count
  let unrolled ← createBlocks (if optimized then 8 else 0) count
  let scalar ← createBlock count
  let exit ← createBlock l.carried.length
  let signed := step.constant? = none
  let entries ← createBlocks (if signed then 3 else 0) 0
  check (∀ block ∈ dispatch :: scalar :: exit :: checks ++ unrolled ++ entries, block.valid)
    ⟨.resourceExhausted, "unable to allocate guarded Lua numeric-loop blocks", 0⟩
  let remaining ← emitRemaining l helper "unable to count guarded Lua loop iterations"
  let initial := l.initialArguments ++ [remaining]
  match entries, step with
  | [positive, nonpositive, negative], _ =>
      emitSignedEntry l positive nonpositive negative dispatch exit initial
  | _, .constant value => emitKnownEntry l (0 < value.toInt) dispatch exit initial
  | _, _ => pure ()
  setInsertionBlock dispatch
  emitSafepoint l.preparationPc "unable to insert a guarded-loop safepoint"
  match checks, unrolled with
  | check :: _, first :: _ => emitUnrollChoice l dispatch check first scalar
  | _, _ => do
      let arguments ← blockArguments dispatch count
      emitJump scalar arguments
  emitIterations p l plan exit dispatch unrolled
  emitIteration p l plan exit scalar dispatch true
  emitExit p l exit "guarded Lua numeric loop has no return"

/-! ## A parameter as the step -/

/-- Copies of the body, with the index advanced between them. -/
def emitCopies : Nat → List Value → EmitGraph (List Value)
  | 0, values => pure values
  | n + 1, values => do
      let (values, _) ← translate p l.bodyRules (l.preparationPc + 1) l.loopPc values
      if n = 0 then pure values
      else do
        let index ← emitBinary .add (values.getD (l.stateBase + 2) .invalid) l.step
        emitCopies n (values.set (l.stateBase + 2) index)

/-- A block of copies of the body that counts the remaining iterations. -/
def emitCountedCopies (factor : Nat) (block dispatch exit : Block) (lostText undefinedText : String) :
    EmitGraph Unit := do
  setInsertionBlock block
  let values ← blockRegisters p l.carried block
  let values ← emitCopies p l factor values
  let index := values.getD (l.stateBase + 2) .invalid
  check index.valid (bytecodeError l.loopPc lostText)
  let remaining ← inspect fun b => b.blockParameter block l.carried.length
  let rest ← emitConstant (BitVec.ofNat 64 (factor - 1))
  let continues ← emitBinary .subtract remaining rest
  let nextIndex ← emitBinary .add index l.step
  let taken ← emitConstant (BitVec.ofNat 64 factor)
  let nextRemaining ← emitBinary .subtract remaining taken
  let completed ← l.completedRegisters values undefinedText
  emitBranch continues dispatch (l.withIndex completed nextIndex ++ [nextRemaining]) exit completed

/-- The block of a single copy that counts the remaining iterations. -/
def emitCountedTail (block dispatch exit : Block) (lostText undefinedText : String) :
    EmitGraph Unit := do
  setInsertionBlock block
  let values ← blockRegisters p l.carried block
  let (values, _) ← translate p l.bodyRules (l.preparationPc + 1) l.loopPc values
  let index := values.getD (l.stateBase + 2) .invalid
  check index.valid (bytecodeError l.loopPc lostText)
  let remaining ← inspect fun b => b.blockParameter block l.carried.length
  let nextIndex ← emitBinary .add index l.step
  let one ← emitConstant 1
  let nextRemaining ← emitBinary .subtract remaining one
  let completed ← l.completedRegisters values undefinedText
  emitBranch remaining dispatch (l.withIndex completed nextIndex ++ [nextRemaining]) exit completed

/-- A loop whose step is a parameter. -/
def emitParameterStepLoop (helper : Word) (optimized : Bool) : EmitGraph Unit := do
  let count := l.carried.length + 1
  let positive ← createBlock 0
  let nonpositive ← createBlock 0
  let negative ← createBlock 0
  let dispatch ← createBlock count
  let checks ← createBlocks (if optimized then 1 else 0) count
  let unrolled ← createBlock count
  let scalar ← createBlock count
  let exit ← createBlock l.carried.length
  check (∀ block ∈ [positive, nonpositive, negative, dispatch, unrolled, scalar, exit] ++ checks,
      block.valid)
    ⟨.resourceExhausted, "unable to allocate Lua parameter-step loop blocks", 0⟩
  let remaining ← emitRemaining l helper "unable to count Lua numeric-loop iterations"
  emitSignedEntry l positive nonpositive negative dispatch exit (l.initialArguments ++ [remaining])
  setInsertionBlock dispatch
  emitSafepoint l.preparationPc "unable to insert a numeric-loop safepoint"
  match checks with
  | check :: _ => emitUnrollChoice l dispatch check unrolled scalar
  | [] => do
      let arguments ← blockArguments dispatch count
      let one ← emitConstant 1
      emitBranch one unrolled arguments scalar arguments
  emitCountedCopies p l (if optimized then 8 else 1) unrolled dispatch exit
    "numeric loop lost its induction state" "numeric loop has an undefined carried register"
  emitCountedTail p l scalar dispatch exit
    "numeric loop lost its scalar induction state"
    "numeric scalar tail has an undefined carried register"
  emitExit p l exit "Lua numeric loop has no supported return"

/-! ## A constant as the step -/

/-- An order in the direction of the loop. -/
def emitOrdered (ascending : Bool) (opcode : BinaryOpcode) (lhs rhs : Value) : EmitGraph Value :=
  if ascending then emitBinary opcode lhs rhs else emitBinary opcode rhs lhs

/-- The choice between eight copies and one, by the index of the last copy, which must neither wrap
nor pass the limit. -/
def emitIndexChoice (ascending : Bool) (factor : Nat) (delta : Word)
    (dispatch unrollCheck unrolled scalar : Block) : EmitGraph Unit := do
  setInsertionBlock dispatch
  emitSafepoint l.preparationPc "unable to insert a numeric-loop safepoint"
  let arguments ← blockArguments dispatch l.carried.length
  let values ← blockRegisters p l.carried dispatch
  let index := values.getD (l.stateBase + 2) .invalid
  let distance ← emitConstant delta
  let lastIndex ← emitBinary .add index distance
  let advances ← if factor = 1 then emitConstant 1
    else emitOrdered ascending .lessThan index lastIndex
  emitBranch advances unrollCheck (arguments ++ [lastIndex]) scalar arguments
  setInsertionBlock unrollCheck
  let arguments ← blockArguments unrollCheck l.carried.length
  let values ← blockRegisters p l.carried unrollCheck
  let lastIndex ← inspect fun b => b.blockParameter unrollCheck l.carried.length
  let hasFullGroup ← emitOrdered ascending .lessEqual lastIndex
    (values.getD (l.stateBase + 1) .invalid)
  emitBranch hasFullGroup unrolled arguments scalar arguments

/-- The end of an iteration: the loop goes on at `again` if the next index neither wraps nor passes
the limit. With a step of one it is enough to compare the index itself. -/
def emitContinue (ascending : Bool) (continueCheck : Option Block) (again exit : Block)
    (values : List Value) (lostText undefinedText : String) : EmitGraph Unit := do
  let index := values.getD (l.stateBase + 2) .invalid
  let limit := values.getD (l.stateBase + 1) .invalid
  check (index.valid ∧ limit.valid) (bytecodeError l.loopPc lostText)
  let nextIndex ← emitBinary .add index l.step
  let completed ← l.completedRegisters values undefinedText
  match continueCheck with
  | none => do
      let continues ← emitOrdered ascending .lessThan index limit
      emitBranch continues again (l.withIndex completed nextIndex) exit completed
  | some block => do
      let isSafe ← emitOrdered ascending .lessThan index nextIndex
      emitBranch isSafe block (completed ++ [nextIndex]) exit completed
      setInsertionBlock block
      let arguments ← blockArguments block l.carried.length
      let values ← blockRegisters p l.carried block
      let nextIndex ← inspect fun b => b.blockParameter block l.carried.length
      let continues ← emitOrdered ascending .lessEqual nextIndex
        (values.getD (l.stateBase + 1) .invalid)
      emitBranch continues again (l.withIndex arguments nextIndex) exit arguments

/-- The number of copies, and the distance from the first index of a group to the last one. -/
def unrollFactor (optimized : Bool) (step : Word) : Nat :=
  if optimized ∧ (0 < step.toInt ∧ step.toInt ≤ (2 ^ 63 - 1) / 7 ∨
      step.toInt ≤ 0 ∧ (-2 ^ 63 : Int).tdiv 7 ≤ step.toInt) then 8 else 1

/-- A loop whose step is a constant. -/
def emitConstantStepLoop (optimized : Bool) (step : Word) : EmitGraph Unit := do
  let ascending : Bool := 0 < step.toInt
  let factor := unrollFactor optimized step
  let delta := if factor = 8 then step * 7 else 0
  let hasUnitStep := step = 1 ∨ step = -1
  let count := l.carried.length
  let dispatch ← createBlock count
  let unrollCheck ← createBlock (count + 1)
  let unrolled ← createBlock count
  let unrolledContinue ← createBlocks (if hasUnitStep then 0 else 1) (count + 1)
  let scalar ← createBlock count
  let scalarContinue ← createBlocks (if hasUnitStep then 0 else 1) (count + 1)
  let exit ← createBlock count
  check (∀ block ∈ [dispatch, unrollCheck, unrolled, scalar, exit] ++ unrolledContinue ++
      scalarContinue, block.valid)
    ⟨.resourceExhausted, "unable to allocate Lua numeric-loop blocks", 0⟩
  emitKnownEntry l ascending dispatch exit l.initialArguments
  emitIndexChoice p l ascending factor delta dispatch unrollCheck unrolled scalar
  setInsertionBlock unrolled
  let values ← blockRegisters p l.carried unrolled
  let values ← emitCopies p l factor values
  emitContinue p l ascending unrolledContinue.head? dispatch exit values
    "numeric loop lost its induction state" "numeric loop has an undefined carried register"
  setInsertionBlock scalar
  let values ← blockRegisters p l.carried scalar
  let (values, _) ← translate p l.bodyRules (l.preparationPc + 1) l.loopPc values
  emitContinue p l ascending scalarContinue.head? scalar exit values
    "numeric loop lost its scalar induction state"
    "numeric scalar tail has an undefined carried register"
  emitExit p l exit "Lua numeric loop has no supported return"

end loops

/-! ## Prototypes -/

section prototypes

variable (p : Proto)

/-- The registers that are read between two positions. -/
def registerIsRead (start stop r : Nat) : Bool :=
  (List.range stop).any fun pc => start ≤ pc && (p.fetch pc).reads.contains r

/-- The registers that are passed through the loop: those that hold a value before it and that the
body, the code after the loop or the loop itself reads. -/
def carriedRegisters (preparationPc loopPc stateBase : Nat) (comparesLimit : Bool)
    (registers : List Value) : List Nat :=
  (List.range registers.length).filter fun r =>
    (registers.getD r .invalid).valid &&
      (registerIsRead p (preparationPc + 1) loopPc r ||
        registerIsRead p (loopPc + 1) p.sizecode r ||
        (comparesLimit && r == stateBase + 1) || r == stateBase + 2)

/-- The code before the loop, and the loop in the shape that suits it. -/
def emitNumericFor (helper : Word) (optimized : Bool) (preparationPc loopPc : Nat)
    (guarded : Option GuardedBodyPlan) (registers : List Value) : EmitGraph Unit := do
  let stateBase := (p.fetch preparationPc).A
  let (registers, _) ← translate p { allowReturn := false } 0 preparationPc registers
  let controls := analyzeLoopControls p preparationPc
  check (validRegister registers stateBase ∧ validRegister registers (stateBase + 1) ∧
      validRegister registers (stateBase + 2) ∧ controls.start ≠ .unknown ∧
      controls.step ≠ .unknown)
    (bytecodeError preparationPc ("numeric for loop requires an integer constant or parameter " ++
      "start and step"))
  check (controls.step ≠ .constant 0)
    (bytecodeError preparationPc "numeric for loop step cannot be zero")
  let comparesLimit := controls.step.constant?.isSome && guarded.isNone
  let l : LoopSite :=
    { preparationPc := preparationPc
      loopPc := loopPc
      stateBase := stateBase
      registers := registers
      carried := carriedRegisters p preparationPc loopPc stateBase comparesLimit registers }
  match guarded, controls.step with
  | some plan, step => emitGuardedLoop p l helper optimized step plan
  | none, .constant step => emitConstantStepLoop p l optimized step
  | none, _ => emitParameterStepLoop p l helper optimized

/-- `compile_numeric_for_prototype`, up to the graph that it hands to the compiler. -/
def compileNumericForPrototype (helper : Word) (optimized : Bool) :
    Except Status ControlFlowFunction := do
  checkLayout p
  let preparationPc ← findPreparation p
  let preparation := p.fetch preparationPc
  let loopPc := preparationPc + preparation.Bx + 1
  require (loopPc < p.sizecode ∧ (p.fetch loopPc).opcode = .forLoop ∧
      (p.fetch loopPc).Bx = loopPc - preparationPc)
    (bytecodeError preparationPc "numeric for loop has malformed control flow")
  require (preparation.A + 2 < p.maxstacksize ∧ (p.fetch loopPc).A = preparation.A)
    (bytecodeError preparationPc "numeric for loop has invalid state registers")
  let guarded ← findGuardedBody p preparationPc loopPc
  let builder := ControlFlowBuilder.create (List.replicate p.numparams .word)
  match emitNumericFor p helper optimized preparationPc loopPc guarded
      (parameterRegisters p builder.parameter) { builder := builder } with
  | .error status _ => throw status
  | .ok _ e => pure e.builder.build

/-- What a prototype is translated to. -/
inductive Translated
  | straight (f : Function)
  | graph (f : ControlFlowFunction)

/-- `compile_prototype`, up to what it hands to the compiler. -/
def compilePrototype (helper : Word) (optimized : Bool) : Except Status Translated :=
  if (List.range p.sizecode).any fun pc => (p.fetch pc).opcode == .forPrep then
    (compileNumericForPrototype p helper optimized).map .graph
  else (compileStraightPrototype p).map .straight

end prototypes

end UniJit.Lua
