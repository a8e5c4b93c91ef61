import UniJit.Ir.ControlFlowInterpreter

/-!
# The interpreters as written

The source has two interpreters with a dispatch each: a `switch` over the opcodes of a
straight-line function, and a chain of comparisons over those of a graph. Both keep the values of
a run in an array of words and an array of vectors, which they index by value id and do not check.

This module translates the two dispatches one by one, each in its own order and with its own
default. `Function.evaluate` and `ControlFlowFunction.evaluate` describe the same runs with typed
cells and one instruction set for both; here nothing is shared but what the source shares, which
are the arithmetic of vectors and the accesses to memory, atomics and objects. An index that the
source would read out of bounds reads as zero here; runs of verified functions have none.
-/

namespace UniJit.Ir

open UniJit.Lib UniJit.Runtime

/-- The arrays of a run. -/
structure Values where
  words : List Word
  vectors : List Vector128

namespace Values

/-- The arrays as they are allocated, all zero. -/
def zero (count : Nat) : Values := ⟨List.replicate count 0, List.replicate count 0⟩

/-- Reads the word array at a value's index. -/
def word (s : Values) (v : Value) : Word := s.words.getD v.index 0

/-- Reads the vector array at a value's index. -/
def vector (s : Values) (v : Value) : Vector128 := s.vectors.getD v.index 0

/-- Writes one entry of the word array. -/
def setWord (s : Values) (index : Nat) (bits : Word) : Values :=
  { s with words := s.words.set index bits }

/-- Writes one entry of the vector array. -/
def setVector (s : Values) (index : Nat) (bits : Vector128) : Values :=
  { s with vectors := s.vectors.set index bits }

end Values

/-- A check that stops the run with its status. -/
def checked {α : Type} : Except Status α → Exec α
  | .ok a => pure a
  | .error status => throw status

namespace Function

variable (host : Host) (f : Function) (args : List Word)

/-- A shift to the left; a negative amount shifts to the right. -/
def shiftLeft (value amount : Word) : Word :=
  if amount.toInt < 0 then
    let magnitude := 0 - amount
    if 64 ≤ magnitude.toNat then 0 else value >>> magnitude.toNat
  else if 64 ≤ amount.toNat then 0 else value <<< amount.toNat

/-- The straight-line interpreter's switch over binary opcodes. -/
def evaluateBinary (float : FloatUnit) (opcode : Operation) (lhs rhs : Word) : Word :=
  match opcode with
  | .binary .add => lhs + rhs
  | .binary .subtract => lhs - rhs
  | .binary .multiply => lhs * rhs
  | .binary .bitwiseAnd => lhs &&& rhs
  | .binary .bitwiseOr => lhs ||| rhs
  | .binary .bitwiseXor => lhs ^^^ rhs
  | .binary .shiftLeft => shiftLeft lhs rhs
  | .binary .floorDivide => floorDivideWord lhs rhs
  | .binary .floorModulo => floorModuloWord lhs rhs
  | .binary .lessThan => if lhs.toInt < rhs.toInt then 1 else 0
  | .binary .lessEqual => if lhs.toInt ≤ rhs.toInt then 1 else 0
  | .binary .equal => if lhs = rhs then 1 else 0
  | .binary .notEqual => if lhs ≠ rhs then 1 else 0
  | .unary .negate => 0 - lhs
  | .unary .bitwiseNot => ~~~lhs
  | .unary .byteSwap => 0
  | .binary .floatAdd => float.add lhs rhs
  | .binary .floatSubtract => float.subtract lhs rhs
  | .unary .floatNegate => lhs ^^^ (1 <<< 63)
  | .binary .floatMultiply => float.multiply lhs rhs
  | .binary .floatDivide => float.divide lhs rhs
  | .binary .floatLessThan => if float.lessThan lhs rhs then 1 else 0
  | .binary .floatLessEqual => if float.lessEqual lhs rhs then 1 else 0
  | .binary .floatEqual => if float.equal lhs rhs then 1 else 0
  | .binary .floatNotEqual => if ¬ float.equal lhs rhs then 1 else 0
  | _ => 0

/-- The arguments of a call, gathered into the argument buffer. -/
def helperArguments (n : Node) (s : Values) : List Word :=
  (List.range n.argumentCount.toNat).map fun argument =>
    s.word (f.callArguments.getD (n.argumentBegin.toNat + argument) .invalid)

/-- One round of the loop over the nodes. -/
def executeNode (index : Nat) (n : Node) (s : Values) : Exec Values :=
  match n.opcode with
  | .parameter => pure (s.setWord index (args.getD n.immediate.toNat 0))
  | .op .constant => pure (s.setWord index n.immediate)
  | .op .call => do
      let result ← callHelper host n.immediate (f.helperArguments n s)
      pure (s.setWord index result)
  | .op .fastCall => do
      let target := n.immediate.toNat
      match (← get).context.bind fun context => context.fastCallOracles.getD target none with
      | none =>
          throw
            { code := .invalidArgument, message := "fast call has no bound interpreter oracle"
              location := target }
      | some oracle =>
          let result ← callHelper host oracle (f.helperArguments n s)
          pure (s.setWord index result)
  | .op .guardWordNonzero =>
      let s := s.setWord index 0
      if s.word n.lhs = 0 then
        stopAt .runtime .runtimeExit "nonzero guard requested a runtime exit" n.immediate.toNat
          (s.word n.lhs)
      else pure s
  | .op .guardFloatNonzero =>
      let s := s.setWord index 0
      if host.float.equal (s.word n.lhs) 0 then
        stopAt .runtime .runtimeExit "nonzero guard requested a runtime exit" n.immediate.toNat
          (s.word n.lhs)
      else pure s
  | .op .safepoint => do
      let s := s.setWord index 0
      if (← get).context.isNone then pure s
      else
        modify fun m =>
          { m.updateContext ExecutionContext.recordSafepointPoll with polls := m.polls + 1 }
        if host.exitPollRequested (← get).polls then
          stopAt .safepoint .executionInterrupted "execution interrupted at a safepoint"
            n.immediate.toNat 0
        else pure s
  | .op (.memory .loadWord) => do
      let result ← loadBoundedWord host (f.memoryAccesses.getD n.memoryAccess.toNat {})
        (s.word n.lhs) n.immediate.toNat
      pure (s.setWord index result)
  | .op (.memory .storeWord) => do
      let result ← storeBoundedWord host (f.memoryAccesses.getD n.memoryAccess.toNat {})
        (s.word n.lhs) (s.word n.rhs) n.immediate.toNat
      pure (s.setWord index result)
  | .op (.memory .loadFloat) => do
      let result ← loadBoundedFloat host (f.memoryAccesses.getD n.memoryAccess.toNat {})
        (s.word n.lhs) n.immediate.toNat
      pure (s.setWord index result)
  | .op (.memory .storeFloat) => do
      let result ← storeBoundedFloat host (f.memoryAccesses.getD n.memoryAccess.toNat {})
        (s.word n.lhs) (s.word n.rhs) n.immediate.toNat
      pure (s.setWord index result)
  | .op (.memory .loadVector) => do
      let result ← loadBoundedVector host (f.memoryAccesses.getD n.memoryAccess.toNat {}) n.type
        (s.word n.lhs) n.immediate.toNat
      pure (s.setVector index result)
  | .op (.memory .storeVector) => do
      let result ← storeBoundedVector host (f.memoryAccesses.getD n.memoryAccess.toNat {}) n.type
        (s.word n.lhs) (s.vector n.rhs) n.immediate.toNat
      pure (s.setVector index result)
  | .op (.atomic o) => do
      let result ← accessBoundedAtomic host (f.atomicAccesses.getD n.atomicAccess.toNat {}) o
        (s.word n.lhs) (if n.rhs.valid then s.word n.rhs else 0)
        (if n.auxiliary.valid then s.word n.auxiliary else 0) n.immediate.toNat
      pure (s.setWord index result)
  | .op .atomicFence => pure (s.setWord index 0)
  | .op .loadFrame => do
      pure (s.setWord index ((← get).frame.getD n.frameSlot.toNat 0))
  | .op .storeFrame => do
      let s := s.setWord index (s.word n.lhs)
      modify fun m => { m with frame := m.frame.set n.frameSlot.toNat (s.words.getD index 0) }
      pure s
  | .op .loadObject => do
      let result ← loadTrustedObject host n.trustedObject n.immediate.toNat
      pure (s.setWord index result)
  | .op .storeObject => do
      let result ← storeTrustedObject host n.trustedObject n.immediate.toNat (s.word n.lhs)
      pure (s.setWord index result)
  | .op .loadPatchCell =>
      pure (s.setWord index (f.patchCells.getD n.immediate.toNat {}).initialValue)
  | .op .vectorConstant => pure (s.setVector index (f.vectorConstants.getD n.immediate.toNat 0))
  | .op .vectorSplat => pure (s.setVector index (vectorSplatBits n.type (s.word n.lhs)))
  | .op .vectorExtractLane =>
      pure (s.setWord index (vectorExtractLaneBits (s.vector n.lhs) (f.valueType n.lhs)
        (n.immediate &&& 0xff).toNat (n.immediate &&& 0x100 != 0)))
  | .op .vectorInsertLane =>
      pure (s.setVector index (vectorInsertLaneBits (s.vector n.lhs) n.type n.immediate.toNat
        (s.word n.rhs)))
  | .op .vectorUnary =>
      pure (s.setVector index (vectorUnary .bitwiseNot (s.vector n.lhs) n.type))
  | .op .vectorBinary =>
      pure (s.setVector index (vectorBinary host.float ((vectorBinaryOf n.immediate).getD .add)
        (s.vector n.lhs) (s.vector n.rhs) n.type))
  | .op .vectorCompare =>
      pure (s.setVector index (vectorCompare host.float
        ((vectorComparisonOf n.immediate).getD .equal) (s.vector n.lhs) (s.vector n.rhs)
        (f.valueType n.lhs)))
  | .op .vectorSelect =>
      pure (s.setVector index (vectorSelect (s.vector n.lhs) (s.vector n.rhs)
        (s.vector (f.vectorSelectArguments.getD n.immediate.toNat .invalid)) (f.valueType n.lhs)))
  | .op .vectorLaneSignMask =>
      pure (s.setWord index (vectorLaneSignMask (s.vector n.lhs) (f.valueType n.lhs)))
  | .op .vectorShuffle =>
      pure (s.setVector index (vectorShuffle (s.vector n.lhs) n.type
        (f.vectorShuffles.getD n.immediate.toNat ⟨Vector.replicate 16 0, 0⟩)))
  | .op .vectorWiden =>
      pure (s.setVector index (vectorWiden (s.vector n.lhs) (f.valueType n.lhs) n.type
        ((widenExtensionOf n.immediate).getD .zero) ((widenHalfOf n.immediate).getD .low)))
  | .op (.unary .byteSwap) =>
      pure (s.setWord index
        (byteSwapWord (s.word n.lhs) ((byteSwapWidthOf n.immediate).getD .k8)))
  | .op o =>
      pure (s.setWord index (evaluateBinary host.float o (s.word n.lhs)
        (if n.rhs.valid then s.word n.rhs else 0)))

/-- Runs the nodes in order from an index. -/
def executeNodes : Nat → List Node → Values → Exec Values
  | _, [], s => pure s
  | index, n :: ns, s => do
      let s ← f.executeNode host args index n s
      executeNodes (index + 1) ns s

/-- The straight-line interpreter. -/
def interpret : Exec Word := do
  checked f.verify
  checked <| require (args.length = f.parameterCount)
    { code := .invalidArgument
      message := "argument count does not match the function signature" }
  modify (Machine.updateContext .clearExit)
  checked <| validateTrustedObjectBindings f.trustedObjects
    (trustedObjectWritable (· == .op .storeObject) f.nodes f.trustedObjects.length)
    (← get).context
  modify fun m => { m with frame := List.replicate f.frameSlots.length 0 }
  let s ← f.executeNodes host args 0 f.nodes (Values.zero f.nodes.length)
  pure (s.word f.returnValue)

end Function

namespace ControlFlowFunction

variable (host : Host) (f : ControlFlowFunction) (args : List Word)

/-- The control-flow interpreter's chain of tests over binary opcodes. -/
def evaluateNode (float : FloatUnit) (opcode : ControlOpcode) (lhs rhs : Word) : Word :=
  if opcode = .op (.binary .add) then lhs + rhs
  else if opcode = .op (.binary .subtract) then lhs - rhs
  else if opcode = .op (.binary .multiply) then lhs * rhs
  else if opcode = .op (.binary .bitwiseAnd) then lhs &&& rhs
  else if opcode = .op (.binary .bitwiseOr) then lhs ||| rhs
  else if opcode = .op (.binary .bitwiseXor) then lhs ^^^ rhs
  else if opcode = .op (.binary .shiftLeft) then
    if rhs.toInt < 0 then
      let magnitude := 0 - rhs
      if 64 ≤ magnitude.toNat then 0 else lhs >>> magnitude.toNat
    else if 64 ≤ rhs.toNat then 0 else lhs <<< rhs.toNat
  else if opcode = .op (.binary .floorDivide) then floorDivideWord lhs rhs
  else if opcode = .op (.binary .floorModulo) then floorModuloWord lhs rhs
  else if opcode = .op (.unary .negate) then 0 - lhs
  else if opcode = .op (.unary .bitwiseNot) then ~~~lhs
  else if opcode = .op (.binary .floatAdd) then float.add lhs rhs
  else if opcode = .op (.binary .floatSubtract) then float.subtract lhs rhs
  else if opcode = .op (.unary .floatNegate) then lhs ^^^ (1 <<< 63)
  else if opcode = .op (.binary .floatMultiply) then float.multiply lhs rhs
  else if opcode = .op (.binary .floatDivide) then float.divide lhs rhs
  else if opcode = .op (.binary .floatLessThan) then if float.lessThan lhs rhs then 1 else 0
  else if opcode = .op (.binary .floatLessEqual) then if float.lessEqual lhs rhs then 1 else 0
  else if opcode = .op (.binary .floatEqual) then if float.equal lhs rhs then 1 else 0
  else if opcode = .op (.binary .floatNotEqual) then if ¬ float.equal lhs rhs then 1 else 0
  else if opcode = .op (.binary .lessThan) then if lhs.toInt < rhs.toInt then 1 else 0
  else if opcode = .op (.binary .lessEqual) then if lhs.toInt ≤ rhs.toInt then 1 else 0
  else if opcode = .op (.binary .equal) then if lhs = rhs then 1 else 0
  else if lhs ≠ rhs then 1 else 0

/-- The arguments of a call, gathered into the argument buffer. -/
def helperArguments (n : ControlNode) (s : Values) : List Word :=
  (List.range n.argumentCount.toNat).map fun argument =>
    s.word (f.callArguments.getD (n.argumentBegin.toNat + argument) .invalid)

/-- One round of the loop over the instructions of a block. -/
def executeInstruction (v : Value) (s : Values) : Exec Values :=
  let n := f.nodes.getD v.index { opcode := .parameter }
  let access := f.memoryAccesses.getD n.memoryAccess.toNat {}
  if n.opcode = .op .constant then pure (s.setWord v.index n.immediate)
  else if n.opcode = .op .call then do
    let result ← callHelper host n.immediate (f.helperArguments n s)
    pure (s.setWord v.index result)
  else if n.opcode = .op .fastCall then do
    let target := n.immediate.toNat
    match (← get).context.bind fun context => context.fastCallOracles.getD target none with
    | none =>
        throw
          { code := .invalidArgument, message := "CFG fast call has no bound interpreter oracle"
            location := target }
    | some oracle =>
        let result ← callHelper host oracle (f.helperArguments n s)
        pure (s.setWord v.index result)
  else if n.opcode = .op .guardWordNonzero ∨ n.opcode = .op .guardFloatNonzero then
    let s := s.setWord v.index 0
    let guarded := s.word n.lhs
    let isZero := if n.opcode = .op .guardWordNonzero then guarded == 0
      else host.float.equal guarded 0
    if isZero then
      stopAt .runtime .runtimeExit "control-flow nonzero guard requested a runtime exit"
        n.immediate.toNat guarded
    else pure s
  else if n.opcode = .op .safepoint then do
    let s := s.setWord v.index 0
    if (← get).context.isNone then pure s
    else
      modify fun m =>
        { m.updateContext ExecutionContext.recordSafepointPoll with polls := m.polls + 1 }
      if host.exitPollRequested (← get).polls then
        stopAt .safepoint .executionInterrupted
          "execution interrupted at a control-flow safepoint" n.immediate.toNat 0
      else pure s
  else if n.opcode = .op (.memory .loadWord) then do
    let result ← loadBoundedWord host access (s.word n.lhs) n.immediate.toNat
    pure (s.setWord v.index result)
  else if n.opcode = .op (.memory .storeWord) then do
    let result ← storeBoundedWord host access (s.word n.lhs) (s.word n.rhs) n.immediate.toNat
    pure (s.setWord v.index result)
  else if n.opcode = .op (.memory .loadFloat) then do
    let result ← loadBoundedFloat host access (s.word n.lhs) n.immediate.toNat
    pure (s.setWord v.index result)
  else if n.opcode = .op (.memory .storeFloat) then do
    let result ← storeBoundedFloat host access (s.word n.lhs) (s.word n.rhs) n.immediate.toNat
    pure (s.setWord v.index result)
  else if n.opcode = .op (.memory .loadVector) then do
    let result ← loadBoundedVector host access n.type (s.word n.lhs) n.immediate.toNat
    pure (s.setVector v.index result)
  else if n.opcode = .op (.memory .storeVector) then do
    let result ← storeBoundedVector host access n.type (s.word n.lhs) (s.vector n.rhs)
      n.immediate.toNat
    pure (s.setVector v.index result)
  else if n.opcode.isAtomicAccess then do
    let o := match n.opcode with
      | .op (.atomic o) => o
      | _ => .load
    let result ← accessBoundedAtomic host (f.atomicAccesses.getD n.atomicAccess.toNat {}) o
      (s.word n.lhs) (if n.rhs.valid then s.word n.rhs else 0)
      (if n.auxiliary.valid then s.word n.auxiliary else 0) n.immediate.toNat
    pure (s.setWord v.index result)
  else if n.opcode = .op .atomicFence then pure (s.setWord v.index 0)
  else if n.opcode = .op .loadFrame then do
    pure (s.setWord v.index ((← get).frame.getD n.frameSlot.toNat 0))
  else if n.opcode = .op .storeFrame then do
    let s := s.setWord v.index (s.word n.lhs)
    modify fun m => { m with frame := m.frame.set n.frameSlot.toNat (s.word v) }
    pure s
  else if n.opcode = .op .loadObject then do
    let result ← loadTrustedObject host n.trustedObject n.immediate.toNat
    pure (s.setWord v.index result)
  else if n.opcode = .op .storeObject then do
    let result ← storeTrustedObject host n.trustedObject n.immediate.toNat (s.word n.lhs)
    pure (s.setWord v.index result)
  else if n.opcode = .op .loadPatchCell then
    pure (s.setWord v.index (f.patchCells.getD n.immediate.toNat {}).initialValue)
  else if n.opcode = .op .vectorConstant then
    pure (s.setVector v.index (f.vectorConstants.getD n.immediate.toNat 0))
  else if n.opcode = .op .vectorSplat then
    pure (s.setVector v.index (vectorSplatBits n.type (s.word n.lhs)))
  else if n.opcode = .op .vectorExtractLane then
    pure (s.setWord v.index (vectorExtractLaneBits (s.vector n.lhs) (f.valueType n.lhs)
      (n.immediate &&& 0xff).toNat (n.immediate &&& 0x100 != 0)))
  else if n.opcode = .op .vectorInsertLane then
    pure (s.setVector v.index (vectorInsertLaneBits (s.vector n.lhs) n.type n.immediate.toNat
      (s.word n.rhs)))
  else if n.opcode = .op .vectorUnary then
    pure (s.setVector v.index (vectorUnary .bitwiseNot (s.vector n.lhs) n.type))
  else if n.opcode = .op .vectorBinary then
    pure (s.setVector v.index (vectorBinary host.float ((vectorBinaryOf n.immediate).getD .add)
      (s.vector n.lhs) (s.vector n.rhs) n.type))
  else if n.opcode = .op .vectorCompare then
    pure (s.setVector v.index (vectorCompare host.float
      ((vectorComparisonOf n.immediate).getD .equal) (s.vector n.lhs) (s.vector n.rhs)
      (f.valueType n.lhs)))
  else if n.opcode = .op .vectorSelect then
    pure (s.setVector v.index (vectorSelect (s.vector n.lhs) (s.vector n.rhs)
      (s.vector (f.vectorSelectArguments.getD n.immediate.toNat .invalid)) (f.valueType n.lhs)))
  else if n.opcode = .op .vectorLaneSignMask then
    pure (s.setWord v.index (vectorLaneSignMask (s.vector n.lhs) (f.valueType n.lhs)))
  else if n.opcode = .op .vectorShuffle then
    pure (s.setVector v.index (vectorShuffle (s.vector n.lhs) n.type
      (f.vectorShuffles.getD n.immediate.toNat ⟨Vector.replicate 16 0, 0⟩)))
  else if n.opcode = .op .vectorWiden then
    pure (s.setVector v.index (vectorWiden (s.vector n.lhs) (f.valueType n.lhs) n.type
      ((widenExtensionOf n.immediate).getD .zero) ((widenHalfOf n.immediate).getD .low)))
  else if n.opcode = .op (.unary .byteSwap) then
    pure (s.setWord v.index
      (byteSwapWord (s.word n.lhs) ((byteSwapWidthOf n.immediate).getD .k8)))
  else
    pure (s.setWord v.index (evaluateNode host.float n.opcode (s.word n.lhs)
      (if n.rhs.valid then s.word n.rhs else 0)))

/-- Runs a block's instructions in order. -/
def executeInstructions : List Value → Values → Exec Values
  | [], s => pure s
  | v :: vs, s => do
      let s ← f.executeInstruction host v s
      executeInstructions vs s

/-- Follow an edge: gather its arguments, then assign the parameters of its target. -/
def followEdge (edge : ControlEdge) (s : Values) : Values :=
  let incoming := edge.arguments.map fun argument =>
    if isVectorValueType (f.valueType argument) then 0 else s.word argument
  let incomingVectors := edge.arguments.map fun argument =>
    if isVectorValueType (f.valueType argument) then s.vector argument else 0
  let target := f.blocks.getD edge.target.index {}
  (List.range incoming.length).foldl
    (fun s index =>
      let parameter := target.parameters.getD index .invalid
      if isVectorValueType (f.valueType parameter) then
        s.setVector parameter.index (incomingVectors.getD index 0)
      else s.setWord parameter.index (incoming.getD index 0))
    s

/-- Execute blocks from `current` on, at most `budget` of them. -/
def executeBlocks : Nat → Block → Values → Exec Word
  | 0, _, _ =>
      throw
        { code := .resourceExhausted, message := "control-flow execution budget was exhausted" }
  | budget + 1, current, s => do
      let block := f.blocks.getD current.index {}
      let s ← f.executeInstructions host (block.instructions.drop block.parameters.length) s
      match block.terminator with
      | .ret v => pure (s.word v)
      | .jump edge => executeBlocks budget edge.target (f.followEdge edge s)
      | .branch condition trueEdge falseEdge =>
          let edge := if s.word condition ≠ 0 then trueEdge else falseEdge
          executeBlocks budget edge.target (f.followEdge edge s)
      | .none => executeBlocks budget Block.invalid s

/-- Assign the arguments of a run to the parameters of the entry block. -/
def assignArguments (s : Values) : Values :=
  let entry := f.blocks.getD f.entryBlock.index {}
  (List.range entry.parameters.length).foldl
    (fun s index =>
      s.setWord (entry.parameters.getD index .invalid).index (args.getD index 0)) s

/-- The control-flow interpreter. -/
def interpret (maximumBlockExecutions : Nat) : Exec Word := do
  checked f.verify
  checked <| require (args.length = f.parameterCount)
    { code := .invalidArgument
      message := "argument count does not match the function signature" }
  checked <| require (maximumBlockExecutions ≠ 0)
    { code := .invalidArgument, message := "control-flow execution budget must be positive" }
  modify (Machine.updateContext .clearExit)
  checked <| validateTrustedObjectBindings f.trustedObjects
    (trustedObjectWritable (· == .op .storeObject) f.nodes f.trustedObjects.length)
    (← get).context
  modify fun m => { m with frame := List.replicate f.frameSlots.length 0 }
  f.executeBlocks host maximumBlockExecutions f.entryBlock
    (f.assignArguments args (Values.zero f.nodes.length))

end ControlFlowFunction

end UniJit.Ir
