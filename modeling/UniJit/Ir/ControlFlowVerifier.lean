import UniJit.Lib.Checked
import UniJit.Lib.Loops
import UniJit.Ir.ControlFlow
import UniJit.Ir.NodeRules

/-!
# The control-flow verifier

`verify` checks a graph in stages, as the source does: the shared tables; the ownership of every
value by one block position, with the terminators' edges (`verifyOwnership`); reachability and
dominance, each a sweep over the blocks repeated until nothing changes; then the body of every
block, where an operand must be available at its use and every side-table entry is claimed once.

The two `std::vector`s `owner` and `position` are one list of optional block positions here, and
the six `claimed_…` vectors are one list of the claimed entries.
-/

namespace UniJit.Ir

open UniJit.Lib

/-- A verifier's refusal, with the place it is about. -/
def invalidControlFlow (location : Nat) (message : String) : Status :=
  { code := .invalidIr, message := message, location := location }

namespace ControlOpcode

/-- The operation of an opcode that is not a parameter. -/
def operation? : ControlOpcode → Option Operation
  | .parameter | .blockParameter => none
  | .op o => some o

/-- A bounded memory access. -/
def isMemory (o : ControlOpcode) : Bool := o.operation?.any (·.isMemory)
/-- An atomic access. -/
def isAtomicAccess (o : ControlOpcode) : Bool := o.operation?.any (·.isAtomicAccess)
/-- An access to a frame slot. -/
def isFrame (o : ControlOpcode) : Bool := o.operation?.any (·.isFrame)
/-- An access to a trusted object. -/
def isObject (o : ControlOpcode) : Bool := o.operation?.any (·.isObject)
/-- An opcode that may leave the function at a site. -/
def isRuntimeExit (o : ControlOpcode) : Bool := o.operation?.any (·.isRuntimeExit)

end ControlOpcode

/-- For each value, the block and the position in that block that define it. -/
abbrev Owners := List (Option (Nat × Nat))

/-- The side tables whose entries are claimed one by one. -/
inductive ClaimTable
  | callArguments | memoryAccesses | atomicAccesses
  | vectorConstants | vectorShuffles | vectorSelects
  deriving DecidableEq, Repr

/-- The side tables in which every entry must be claimed, in the order the verifier checks them. -/
def ClaimTable.all : List ClaimTable :=
  [.callArguments, .memoryAccesses, .atomicAccesses, .vectorConstants, .vectorShuffles,
   .vectorSelects]

/-- A claimed entry: its table and its index. -/
abbrev Claim := ClaimTable × Nat

namespace SideTables

/-- The number of entries of a side table. -/
def claimTableSize (t : SideTables) : ClaimTable → Nat
  | .callArguments => t.callArguments.length
  | .memoryAccesses => t.memoryAccesses.length
  | .atomicAccesses => t.atomicAccesses.length
  | .vectorConstants => t.vectorConstants.length
  | .vectorShuffles => t.vectorShuffles.length
  | .vectorSelects => t.vectorSelectArguments.length

/-- Every entry of a side table is claimed. -/
abbrev allClaimed (t : SideTables) (claimed : List Claim) (table : ClaimTable) : Prop :=
  ∀ index ∈ List.range (t.claimTableSize table), (table, index) ∈ claimed

end SideTables

namespace ControlFlowFunction

variable (f : ControlFlowFunction)

/-! ## Ownership -/

/-- The opcode of a parameter node: function parameters belong to the entry block. -/
def expectedParameter (blockIndex : Nat) : ControlOpcode :=
  if blockIndex = 0 then .parameter else .blockParameter

/-- The check of one instruction reference during the ownership scan. -/
def verifyOwner (blockIndex : Nat) (block : BasicBlock) (instructionIndex : Nat) (value : Value)
    (owners : Owners) : Except Status Owners := do
  require (f.validValue value ∧ owners[value.index]? = some none)
    (invalidControlFlow blockIndex "SSA value has invalid block ownership")
  let owners := owners.set value.index (some (blockIndex, instructionIndex))
  let node := f.nodes.getD value.index { opcode := .parameter }
  require (node.opcode.isMemory ∨ node.memoryAccess = kInvalidIndex)
    (invalidControlFlow value.index "non-memory CFG node has a memory descriptor")
  require (node.opcode.isAtomicAccess ∨ node.atomicAccess = kInvalidIndex)
    (invalidControlFlow value.index "non-atomic CFG node has an atomic descriptor")
  require (node.opcode = .op (.atomic .compareExchange) ∨ ¬ node.auxiliary.valid)
    (invalidControlFlow value.index "non-CAS CFG node has an auxiliary operand")
  require (node.opcode.isFrame ∨ node.frameSlot = kInvalidIndex)
    (invalidControlFlow value.index "non-frame CFG node has a frame slot")
  require (node.opcode.isObject ∨ node.trustedObject = kInvalidIndex)
    (invalidControlFlow value.index "non-object CFG node has a trusted object")
  if instructionIndex < block.parameters.length then
    require (block.parameters[instructionIndex]? = some value)
      (invalidControlFlow blockIndex "block parameter order is inconsistent")
    require (node.opcode = expectedParameter blockIndex ∧
        node.immediate = BitVec.ofNat 64 instructionIndex ∧ noOperands node ∧
        noCallArguments node)
      (invalidControlFlow blockIndex "block parameter node is malformed")
    require (¬ (blockIndex = 0 ∧
        (node.type ≠ f.parameterType instructionIndex ∨ ¬ isScalarValueType node.type)))
      (invalidControlFlow blockIndex "entry parameter type is inconsistent")
    pure owners
  else
    require (node.opcode.operation?.isSome)
      (invalidControlFlow blockIndex "parameter node appears in block body")
    pure owners

/-- The check of one outgoing edge during the ownership scan. -/
def noteEdge (blockIndex : Nat) (edge : ControlEdge) : Except Status Unit := do
  require (f.validBlock edge.target ∧ edge.target.index ≠ 0)
    (invalidControlFlow blockIndex "terminator has an invalid target block")
  let target := f.blocks.getD edge.target.index {}
  require (edge.arguments.length = target.parameters.length)
    (invalidControlFlow blockIndex "edge argument count does not match target block")
  (edge.arguments.zip target.parameters).forM fun (argument, parameter) =>
    require (f.validValue argument ∧ f.valueType argument = f.valueType parameter)
      (invalidControlFlow blockIndex "edge argument type does not match block parameter")

/-- The ownership scan of one block. -/
def verifyBlockOwnership (blockIndex : Nat) (block : BasicBlock) (owners : Owners) :
    Except Status Owners := do
  require (block.parameters.length ≤ block.instructions.length)
    (invalidControlFlow blockIndex "block parameters are not instructions")
  let owners ← foldExcept (f.verifyOwner blockIndex block) 0 block.instructions owners
  require (block.terminator ≠ .none)
    (invalidControlFlow blockIndex "basic block has no terminator")
  block.terminator.edges.forM (f.noteEdge blockIndex)
  pure owners

/-- Every node belongs to exactly one block. -/
def verifyOwnership : Except Status Owners := do
  let owners ← foldExcept f.verifyBlockOwnership 0 f.blocks
    (List.replicate f.nodes.length none)
  require (∀ owner ∈ owners, owner.isSome)
    (invalidControlFlow 0 "SSA value is not owned by a basic block")
  pure owners

/-! ## Reachability and dominance -/

/-- The blocks with an edge to `target`, one entry per edge. -/
def predecessors (target : Nat) : List Nat :=
  (f.blocks.zipIdx).flatMap fun (block, index) =>
    (block.terminator.edges.filter (·.target.index == target)).map fun _ => index

/-- One visit of the reachability sweep. -/
def reachStep (reachable : List Bool) (blockIndex : Nat) : List Bool :=
  if reachable.getD blockIndex false then reachable
  else if (f.predecessors blockIndex).any (reachable.getD · false) then
    reachable.set blockIndex true
  else reachable

/-- One sweep over the blocks after the entry. -/
def reachSweep (reachable : List Bool) : List Bool :=
  (List.range' 1 (f.blocks.length - 1)).foldl f.reachStep reachable

/-- The blocks that the entry reaches. -/
def reachable : List Bool :=
  stabilize f.reachSweep f.blocks.length
    (true :: List.replicate (f.blocks.length - 1) false)

/-- The dominator row that the predecessors of a block give it. -/
def dominatorRow (dominates : List (List Bool)) (blockIndex : Nat) : List Bool :=
  (List.range f.blocks.length).map fun candidate =>
    candidate == blockIndex ||
      (f.predecessors blockIndex).all fun predecessor =>
        (dominates.getD predecessor []).getD candidate false

/-- One sweep over the blocks after the entry. -/
def dominatorSweep (dominates : List (List Bool)) : List (List Bool) :=
  (List.range' 1 (f.blocks.length - 1)).foldl
    (fun rows blockIndex => rows.set blockIndex (f.dominatorRow rows blockIndex)) dominates

/-- The dominator matrix: row `b` marks the blocks that dominate `b`. -/
def dominates : List (List Bool) :=
  stabilize f.dominatorSweep (f.blocks.length * f.blocks.length)
    ((List.range f.blocks.length).map fun row =>
      (List.range f.blocks.length).map fun column => row ≠ 0 ∨ column = 0)

/-- A value is available at a position of a block. -/
def available (owners : Owners) (dominates : List (List Bool)) (value : Value)
    (useBlock usePosition : Nat) : Bool :=
  decide (f.validValue value) &&
    match owners.getD value.index none with
    | none => false
    | some (definitionBlock, position) =>
        if definitionBlock = useBlock then position < usePosition
        else (dominates.getD useBlock []).getD definitionBlock false

/-- The operand context of a position of a block. -/
def availableType (owners : Owners) (dominates : List (List Bool)) (useBlock usePosition : Nat)
    (value : Value) : Option ValueType :=
  if f.available owners dominates value useBlock usePosition then some (f.valueType value)
  else none

/-! ## Block bodies -/

/-- No runtime exit before an index has this site. -/
abbrev siteUnused (index : Nat) (site : Word) : Prop :=
  ∀ previous ∈ f.nodes.take index,
    ¬ (previous.opcode.isRuntimeExit ∧ previous.immediate = site)

/-- Refuses a site that an earlier exit uses. -/
def requireSiteUnused (index : Nat) (n : ControlNode) : Except Status Unit :=
  require (f.siteUnused index n.immediate)
    (invalidControlFlow index "control-flow runtime exit site is duplicated")

/-- Claim the flat argument entries of a call, one by one. -/
def claimArguments (start : Nat) (check : Nat → Value → Bool → Except Status Unit)
    (arguments : List Value) (claimed : List Claim) : Except Status (List Claim) :=
  foldExcept (fun index argument claimed => do
      check index argument (decide ((.callArguments, start + index) ∈ claimed))
      pure ((.callArguments, start + index) :: claimed)) 0 arguments claimed

/-- The check of an instruction of a block body, with the value's index, its operand context and
the entries claimed so far. -/
def verifyOperation (Γ : Value → Option ValueType) (index : Nat) (n : ControlNode)
    (claimed : List Claim) : Operation → Except Status (List Claim)
  | .constant => do
      require (constantOk n) (invalidControlFlow index "constant has runtime-call arguments")
      pure claimed
  | .call => do
      require (noOperands n ∧ isScalarValueType n.type ∧ n.immediate ≠ 0 ∧
          n.argumentBegin.toNat ≤ f.callArguments.length ∧
          n.argumentCount.toNat ≤ f.callArguments.length - n.argumentBegin.toNat)
        (invalidControlFlow index "control-flow runtime call is malformed")
      claimArguments n.argumentBegin.toNat (fun _ argument taken => do
          require (¬ taken ∧ (Γ argument).isSome)
            (invalidControlFlow index "runtime call argument is duplicated or unavailable")
          require ((Γ argument).any isScalarValueType)
            (invalidControlFlow index "CFG runtime call argument must be scalar"))
        ((f.callArguments.drop n.argumentBegin.toNat).take n.argumentCount.toNat) claimed
  | .fastCall => do
      require (fastCallTargetOk f.toSideTables n ∧
          n.argumentBegin.toNat ≤ f.callArguments.length ∧
          n.argumentCount.toNat ≤ f.callArguments.length - n.argumentBegin.toNat)
        (invalidControlFlow index "control-flow fast call is malformed")
      let descriptor := f.fastCalls.getD n.immediate.toNat {}
      require (n.type = descriptor.returnType ∧
          n.argumentCount.toNat = descriptor.parameterTypes.length)
        (invalidControlFlow index "control-flow fast call signature is malformed")
      claimArguments n.argumentBegin.toNat (fun position argument taken =>
          require (¬ taken ∧ Γ argument = descriptor.parameterTypes[position]? ∧
              (Γ argument).isSome)
            (invalidControlFlow index
              "fast call argument is duplicated, unavailable, or mistyped"))
        ((f.callArguments.drop n.argumentBegin.toNat).take n.argumentCount.toNat) claimed
  | .vectorConstant => do
      require (isVectorValueType n.type ∧ 0 ≤ n.immediate.toInt ∧
          n.immediate.toNat < f.vectorConstants.length ∧
          (.vectorConstants, n.immediate.toNat) ∉ claimed ∧ noOperands n ∧ noCallArguments n)
        (invalidControlFlow index "CFG vector constant is malformed")
      require (isMaskVectorType n.type →
          vectorMaskIsCanonical (f.vectorConstants.getD n.immediate.toNat 0) n.type)
        (invalidControlFlow index "CFG vector mask constant is not canonical")
      pure ((.vectorConstants, n.immediate.toNat) :: claimed)
  | .vectorSplat => do
      require (vectorSplatOk Γ n) (invalidControlFlow index "CFG vector splat is malformed")
      pure claimed
  | .vectorExtractLane => do
      require (vectorExtractLaneOk Γ n)
        (invalidControlFlow index "CFG vector lane extraction is malformed")
      pure claimed
  | .vectorInsertLane => do
      require (vectorInsertLaneOk Γ n)
        (invalidControlFlow index "CFG vector lane insertion is malformed")
      pure claimed
  | .vectorUnary => do
      require (vectorUnaryOk Γ n)
        (invalidControlFlow index "CFG vector unary operation is malformed")
      pure claimed
  | .vectorBinary => do
      require (vectorBinaryOk Γ n)
        (invalidControlFlow index "CFG vector binary operation is malformed")
      pure claimed
  | .vectorCompare => do
      require (vectorCompareOk Γ n)
        (invalidControlFlow index "CFG vector comparison is malformed")
      pure claimed
  | .vectorSelect => do
      require (0 ≤ n.immediate.toInt ∧ n.immediate.toNat < f.vectorSelectArguments.length ∧
          (.vectorSelects, n.immediate.toNat) ∉ claimed ∧
          vectorSelectOk Γ n (f.vectorSelectArguments.getD n.immediate.toNat .invalid))
        (invalidControlFlow index "CFG vector selection is malformed")
      pure ((.vectorSelects, n.immediate.toNat) :: claimed)
  | .vectorLaneSignMask => do
      require (vectorLaneSignMaskOk Γ n)
        (invalidControlFlow index "CFG vector lane-sign extraction is malformed")
      pure claimed
  | .vectorShuffle => do
      require (0 ≤ n.immediate.toInt ∧ n.immediate.toNat < f.vectorShuffles.length ∧
          (.vectorShuffles, n.immediate.toNat) ∉ claimed ∧ vectorShuffleOk Γ n)
        (invalidControlFlow index "CFG vector shuffle is malformed")
      let shuffle := f.vectorShuffles.getD n.immediate.toNat ⟨Vector.replicate 16 0, 0⟩
      require (shuffleLaneCountOk n shuffle)
        (invalidControlFlow index "CFG vector shuffle lane count is invalid")
      require (shuffleLanesOk shuffle)
        (invalidControlFlow index "CFG vector shuffle lane is out of range")
      pure ((.vectorShuffles, n.immediate.toNat) :: claimed)
  | .vectorWiden => do
      require (vectorWidenOk Γ n) (invalidControlFlow index "CFG vector widening is malformed")
      pure claimed
  | .memory o => do
      require (n.memoryAccess.toNat < f.memoryAccesses.length ∧
          (.memoryAccesses, n.memoryAccess.toNat) ∉ claimed)
        (invalidControlFlow index "CFG memory descriptor is invalid or duplicated")
      let access := f.memoryAccesses.getD n.memoryAccess.toNat {}
      require (memoryOk Γ f.toSideTables n o access)
        (invalidControlFlow index "bounded CFG memory operation is malformed")
      require (memoryLoadOk n o)
        (invalidControlFlow index "bounded CFG memory load has a stored value")
      require (memoryStoredOk Γ n o)
        (invalidControlFlow index "bounded CFG memory store value is malformed")
      f.requireSiteUnused index n
      pure ((.memoryAccesses, n.memoryAccess.toNat) :: claimed)
  | .atomic o => do
      require (n.atomicAccess.toNat < f.atomicAccesses.length ∧
          (.atomicAccesses, n.atomicAccess.toNat) ∉ claimed)
        (invalidControlFlow index "CFG atomic descriptor is invalid or duplicated")
      let access := f.atomicAccesses.getD n.atomicAccess.toNat {}
      require (atomicOk Γ f.toSideTables n o access)
        (invalidControlFlow index "bounded CFG atomic operation is malformed")
      require (atomicInputOk Γ n o)
        (invalidControlFlow index
          (if o = .load then "CFG atomic load has a stored value"
            else "CFG atomic input value is malformed"))
      require (atomicDesiredOk Γ n o)
        (invalidControlFlow index "CFG atomic compare-exchange desired value is malformed")
      f.requireSiteUnused index n
      pure ((.atomicAccesses, n.atomicAccess.toNat) :: claimed)
  | .atomicFence => do
      require (atomicFenceOk n) (invalidControlFlow index "CFG atomic fence is malformed")
      pure claimed
  | .loadFrame => do
      require (frameOk f.toSideTables n)
        (invalidControlFlow index "CFG frame operation is malformed")
      require (frameTypeOk f.toSideTables n)
        (invalidControlFlow index "CFG frame operation has an invalid type")
      require (¬ n.lhs.valid) (invalidControlFlow index "CFG frame load has a stored value")
      pure claimed
  | .storeFrame => do
      require (frameOk f.toSideTables n)
        (invalidControlFlow index "CFG frame operation is malformed")
      require (frameTypeOk f.toSideTables n)
        (invalidControlFlow index "CFG frame operation has an invalid type")
      require (Γ n.lhs = some n.type)
        (invalidControlFlow index "CFG frame store value is malformed")
      pure claimed
  | .loadObject => do
      require (objectOk f.toSideTables n)
        (invalidControlFlow index "CFG trusted object operation is malformed")
      require (objectFieldOk n (f.trustedObjects.getD n.trustedObject.toNat {}))
        (invalidControlFlow index "CFG trusted object field is outside its layout")
      require (¬ n.lhs.valid)
        (invalidControlFlow index "CFG trusted object load has a stored value")
      pure claimed
  | .storeObject => do
      require (objectOk f.toSideTables n)
        (invalidControlFlow index "CFG trusted object operation is malformed")
      require (objectFieldOk n (f.trustedObjects.getD n.trustedObject.toNat {}))
        (invalidControlFlow index "CFG trusted object field is outside its layout")
      require (Γ n.lhs = some n.type)
        (invalidControlFlow index "CFG trusted object store value is malformed")
      pure claimed
  | .loadPatchCell => do
      require (loadPatchCellOk f.toSideTables n)
        (invalidControlFlow index "CFG patch cell load is malformed")
      pure claimed
  | .guardWordNonzero => do
      require (guardOk Γ n .word)
        (invalidControlFlow index "control-flow nonzero guard is malformed")
      f.requireSiteUnused index n
      pure claimed
  | .guardFloatNonzero => do
      require (guardOk Γ n .float64)
        (invalidControlFlow index "control-flow nonzero guard is malformed")
      f.requireSiteUnused index n
      pure claimed
  | .safepoint => do
      require (safepointOk n) (invalidControlFlow index "control-flow safepoint is malformed")
      f.requireSiteUnused index n
      pure claimed
  | .unary o => do
      require (unaryOk Γ n o)
        (invalidControlFlow index "control-flow unary operation is malformed")
      pure claimed
  | .binary o => do
      require ((Γ n.lhs).isSome ∧ (Γ n.rhs).isSome ∧ noCallArguments n)
        (invalidControlFlow index "SSA operand does not dominate its instruction")
      require (binaryTypesOk Γ n o)
        (invalidControlFlow index
          (if isFloatComparison o then "Float64 CFG comparison has incompatible types"
            else if hasFloatOperands o then "Float64 CFG arithmetic has incompatible types"
            else "word CFG operation has incompatible types"))
      pure claimed

/-- The check of the instruction at a body position of a block. -/
def verifyBodyNode (owners : Owners) (dominates : List (List Bool)) (blockIndex : Nat)
    (instructionIndex : Nat) (value : Value) (claimed : List Claim) :
    Except Status (List Claim) :=
  let node := f.nodes.getD value.index { opcode := .parameter }
  match node.opcode with
  | .op o =>
      f.verifyOperation (f.availableType owners dominates blockIndex instructionIndex)
        value.index node claimed o
  | _ => throw (invalidControlFlow value.index "unknown control-flow opcode")

/-- The check of a terminator's value and of the return type, with the type of the returns seen
so far. -/
def verifyTerminator (Γ : Value → Option ValueType) (blockIndex : Nat)
    (terminator : ControlTerminator) (returnType : Option ValueType) :
    Except Status (Option ValueType) :=
  match terminator with
  | .none => pure returnType
  | .ret value => do
      require (Γ value).isSome
        (invalidControlFlow blockIndex "terminator value is unavailable in its block")
      require (isScalarValueType (f.valueType value))
        (invalidControlFlow blockIndex "CFG return type is not supported by the scalar ABI")
      require (∀ type ∈ returnType, f.valueType value = type)
        (invalidControlFlow blockIndex "CFG return values have inconsistent types")
      pure (some (f.valueType value))
  | .jump edge => do
      require (∀ argument ∈ edge.arguments, (Γ argument).isSome)
        (invalidControlFlow blockIndex "jump argument is unavailable in its block")
      pure returnType
  | .branch condition trueEdge falseEdge => do
      require (Γ condition).isSome
        (invalidControlFlow blockIndex "terminator value is unavailable in its block")
      require (f.valueType condition = .word)
        (invalidControlFlow blockIndex "branch condition must be a word value")
      require ((∀ argument ∈ trueEdge.arguments, (Γ argument).isSome) ∧
          ∀ argument ∈ falseEdge.arguments, (Γ argument).isSome)
        (invalidControlFlow blockIndex "branch argument is unavailable in its block")
      pure returnType

/-- The check of one block's body and terminator. -/
def verifyBlockBody (owners : Owners) (dominates : List (List Bool)) (blockIndex : Nat)
    (block : BasicBlock) (state : List Claim × Option ValueType) :
    Except Status (List Claim × Option ValueType) := do
  let claimed ← foldExcept (f.verifyBodyNode owners dominates blockIndex)
    block.parameters.length (block.instructions.drop block.parameters.length) state.1
  let returnType ← f.verifyTerminator
    (f.availableType owners dominates blockIndex block.instructions.length) blockIndex
    block.terminator state.2
  pure (claimed, returnType)

/-- The message about an entry of a side table that no node claims. -/
def unreferencedMessage : ClaimTable → String
  | .callArguments => "control-flow graph contains unreferenced call arguments"
  | .memoryAccesses => "control-flow graph contains unreferenced memory descriptors"
  | .atomicAccesses => "control-flow graph contains unreferenced atomic descriptors"
  | .vectorConstants => "control-flow graph contains unreferenced vector constants"
  | .vectorShuffles => "control-flow graph contains unreferenced vector shuffles"
  | .vectorSelects => "control-flow graph contains unreferenced vector select operands"

/-- The control-flow verifier. -/
def verify : Except Status Unit := do
  require (f.blocks ≠ [] ∧ f.entryBlock = Block.ofIndex 0)
    (invalidControlFlow 0 "control-flow graph has no entry block")
  require (f.parameterCount = (f.blocks.getD 0 {}).parameters.length)
    (invalidControlFlow 0 "entry block parameters do not match the function signature")
  require (f.memoryRegionCount ≤ kInvalidIndex.toNat)
    (invalidControlFlow 0 "memory region count exceeds the CFG index range")
  require (f.frameSlots.length ≤ kInvalidIndex.toNat)
    (invalidControlFlow 0 "frame slot count exceeds the CFG index range")
  require f.frameSlotsScalar (invalidControlFlow 0 "CFG frame slot has an invalid type")
  require (f.trustedObjects.length ≤ kInvalidIndex.toNat)
    (invalidControlFlow 0 "trusted object count exceeds the CFG index range")
  require f.trustedObjectsOk
    (invalidControlFlow 0 "CFG trusted object descriptor is malformed")
  require (f.patchCells.length ≤ kInvalidIndex.toNat)
    (invalidControlFlow 0 "CFG patch cell count exceeds the IR index range")
  require (f.fastCalls.length ≤ kInvalidIndex.toNat)
    (invalidControlFlow 0 "CFG fast call count exceeds the IR index range")
  require f.fastCallsScalar
    (invalidControlFlow 0 "CFG fast call descriptor has a non-scalar signature")
  let owners ← f.verifyOwnership
  require (∀ reached ∈ f.reachable, reached = true)
    (invalidControlFlow 0 "control-flow graph contains unreachable blocks")
  let (claimed, _) ← foldExcept (f.verifyBlockBody owners f.dominates) 0 f.blocks ([], none)
  ClaimTable.all.forM fun table =>
    require (f.allClaimed claimed table) (invalidControlFlow 0 (unreferencedMessage table))

end ControlFlowFunction

end UniJit.Ir
