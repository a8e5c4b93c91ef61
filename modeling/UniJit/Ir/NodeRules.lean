import UniJit.Ir.Function

/-!
# The rules an operation's node obeys

The straight-line verifier and the control-flow verifier impose the same conditions on a node of
a given operation. They differ in what it means for an operand to be usable: an earlier node in a
straight line, an available value in a graph. Here an operand context `Γ : Value → Option ValueType`
stands for either notion; `Γ v = some t` says that `v` is usable and has type `t`.

Each rule is named after its operation and lists the source's conditions in the source's order.
`Typed` collects the rules of all operations in one judgement; what it leaves out are the
conditions on side tables that the two verifiers state differently (who may refer to which entry)
and the uniqueness of exit sites.
-/

namespace UniJit.Ir

variable {Op : Type}

/-! ## Rules of immediates -/

/-- The immediates of unary vector operations. -/
def validVectorUnary (immediate : Word) : Bool := immediate == 0

/-- The operation a vector-binary immediate denotes, if it is in range. -/
def vectorBinaryOf (immediate : Word) : Option VectorBinaryOperation :=
  if 0 ≤ immediate.toInt then enumOfCode VectorBinaryOperation.order immediate.toNat else none

/-- The immediates of binary vector operations that are defined on a type. -/
def validVectorBinary (immediate : Word) (type : ValueType) : Bool :=
  match vectorBinaryOf immediate with
  | none => false
  | some .bitwiseAnd | some .bitwiseOr | some .bitwiseXor => isVectorValueType type
  | some .divide => isFloatVectorType type
  | some _ => isIntegerVectorType type || isFloatVectorType type

/-- The comparison a vector-compare immediate denotes, if it is in range. -/
def vectorComparisonOf (immediate : Word) : Option VectorComparison :=
  if 0 ≤ immediate.toInt then enumOfCode VectorComparison.order immediate.toNat else none

/-- The comparisons of float lanes. -/
def isOrderedFloatComparison : VectorComparison → Bool
  | .orderedFloatEqual | .orderedFloatLessThan | .orderedFloatLessEqual => true
  | _ => false

/-- The immediates of vector comparisons that are defined on a type. -/
def validVectorComparison (immediate : Word) (type : ValueType) : Bool :=
  match vectorComparisonOf immediate with
  | none => false
  | some comparison =>
      if isFloatVectorType type then isOrderedFloatComparison comparison
      else isIntegerVectorType type && !isOrderedFloatComparison comparison

/-- A widening goes between integer vectors, to lanes of twice the width. -/
def validVectorWiden (source result : ValueType) : Bool :=
  isIntegerVectorType source && isIntegerVectorType result &&
    vectorLaneBits result == vectorLaneBits source * 2 &&
    vectorLaneCount result * 2 == vectorLaneCount source

/-- The memory order a fence immediate denotes: the source casts the word to a byte-sized
enumeration, which keeps its low eight bits. -/
def fenceOrderOf (immediate : Word) : Option AtomicMemoryOrder :=
  enumOfCode AtomicMemoryOrder.enumOrder (immediate.setWidth 8).toNat

/-- The width a byte-swap immediate denotes. -/
def byteSwapWidthOf (immediate : Word) : Option MemoryWidth :=
  if immediate = 2 then some .k16
  else if immediate = 4 then some .k32
  else if immediate = 8 then some .k64
  else none

/-- The lane of a lane-extraction immediate. -/
def extractLane (immediate : Word) : Nat := (immediate &&& 0xff).toNat

/-- The sign-extension flag of a lane-extraction immediate. -/
def extractSignExtend (immediate : Word) : Bool := immediate &&& 0x100 != 0

/-! ## Rules of operations -/

/-- The node names no call arguments. -/
abbrev noCallArguments (n : NodeOf Op) : Prop := n.argumentBegin = 0 ∧ n.argumentCount = 0

/-- The node has no operands. -/
abbrev noOperands (n : NodeOf Op) : Prop := ¬ n.lhs.valid ∧ ¬ n.rhs.valid

/-- A vector type that holds data, not a mask. -/
def isLaneVectorType (type : ValueType) : Bool :=
  isIntegerVectorType type || isFloatVectorType type

section rules

variable (Γ : Value → Option ValueType) (t : SideTables) (n : NodeOf Op)

/-- The rule for constants. -/
abbrev constantOk : Prop := isScalarValueType n.type ∧ noOperands n ∧ noCallArguments n

/-- A helper call has a target, a scalar result and no direct operands. -/
abbrev callTargetOk : Prop := n.immediate ≠ 0 ∧ isScalarValueType n.type ∧ noOperands n

/-- The rule for the target of a fast call. -/
abbrev fastCallTargetOk : Prop :=
  0 ≤ n.immediate.toInt ∧ n.immediate.toNat < t.fastCalls.length ∧ noOperands n

/-- The rule for splats. -/
abbrev vectorSplatOk : Prop :=
  isLaneVectorType n.type ∧ n.immediate = 0 ∧ Γ n.lhs = some .word ∧ ¬ n.rhs.valid ∧
    noCallArguments n

/-- The rule for lane extraction. -/
abbrev vectorExtractLaneOk : Prop :=
  0 ≤ n.immediate.toInt ∧ n.immediate &&& ~~~0x1ff = 0 ∧
    ((Γ n.lhs).any fun source =>
      isVectorValueType source && decide (extractLane n.immediate < vectorLaneCount source) &&
        (!extractSignExtend n.immediate || isIntegerVectorType source)) ∧
    n.type = .word ∧ ¬ n.rhs.valid ∧ noCallArguments n

/-- The rule for lane insertion. -/
abbrev vectorInsertLaneOk : Prop :=
  0 ≤ n.immediate.toInt ∧ isLaneVectorType n.type ∧ Γ n.lhs = some n.type ∧
    Γ n.rhs = some .word ∧ n.immediate.toNat < vectorLaneCount n.type ∧ noCallArguments n

/-- The rule for unary vector operations. -/
abbrev vectorUnaryOk : Prop :=
  validVectorUnary n.immediate ∧ isVectorValueType n.type ∧ Γ n.lhs = some n.type ∧
    ¬ n.rhs.valid ∧ noCallArguments n

/-- The rule for binary vector operations. -/
abbrev vectorBinaryOk : Prop :=
  validVectorBinary n.immediate n.type ∧ Γ n.lhs = some n.type ∧ Γ n.rhs = some n.type ∧
    noCallArguments n

/-- The rule for vector comparisons. -/
abbrev vectorCompareOk : Prop :=
  ((Γ n.lhs).any fun source =>
      decide (Γ n.rhs = some source) && validVectorComparison n.immediate source &&
        decide (n.type = vectorMaskType source)) ∧
    noCallArguments n

/-- A selection whose third operand is `third`. -/
abbrev vectorSelectOk (third : Value) : Prop :=
  ((Γ n.lhs).any fun mask => isMaskVectorType mask && vectorShapesMatch mask n.type) ∧
    isVectorValueType n.type ∧ Γ n.rhs = some n.type ∧ Γ third = some n.type ∧ noCallArguments n

/-- The rule for lane sign masks. -/
abbrev vectorLaneSignMaskOk : Prop :=
  n.immediate = 0 ∧ (Γ n.lhs).any isVectorValueType ∧ n.type = .word ∧ ¬ n.rhs.valid ∧
    noCallArguments n

/-- The rule for shuffles. -/
abbrev vectorShuffleOk : Prop :=
  isVectorValueType n.type ∧ Γ n.lhs = some n.type ∧ ¬ n.rhs.valid ∧ noCallArguments n

/-- A shuffle lists one index for each lane. -/
abbrev shuffleLaneCountOk (shuffle : VectorShuffle) : Prop :=
  shuffle.laneCount.toNat = vectorLaneCount n.type

/-- Every meaningful lane of a shuffle selects an existing lane. -/
abbrev shuffleLanesOk (shuffle : VectorShuffle) : Prop :=
  ∀ lane ∈ shuffle.lanes.toList.take shuffle.laneCount.toNat,
    lane.toNat < shuffle.laneCount.toNat

/-- The rule for widenings. -/
abbrev vectorWidenOk : Prop :=
  0 ≤ n.immediate.toInt ∧ n.immediate &&& ~~~0x101 = 0 ∧
    ((Γ n.lhs).any fun source => validVectorWiden source n.type) ∧ ¬ n.rhs.valid ∧
    noCallArguments n

/-- The type a memory operation loads or stores. -/
def memoryResultType (o : MemoryOpcode) : ValueType :=
  if isVectorMemory o then n.type else if isFloatMemory o then .float64 else .word

/-- The rule for bounded memory accesses. -/
abbrev memoryOk (o : MemoryOpcode) (access : MemoryAccessDescriptor) : Prop :=
  access.region.toNat < t.memoryRegionCount ∧ access.alignment ≠ 0 ∧
    access.alignment.toNat ≤ memoryWidthBytes access.width ∧
    access.alignment &&& (access.alignment - 1) = 0 ∧
    ¬ ((isFloatMemory o ∨ isMemoryStore o) ∧ access.signExtend) ∧
    ¬ (¬ isVectorMemory o ∧ access.width = .k128) ∧
    ¬ (isVectorMemory o ∧ (access.width ≠ .k128 ∨ ¬ isLaneVectorType n.type)) ∧
    ¬ (isFloatMemory o ∧ access.width ≠ .k32 ∧ access.width ≠ .k64) ∧
    0 ≤ n.immediate.toInt ∧ n.type = memoryResultType n o ∧ Γ n.lhs = some .word ∧
    noCallArguments n

/-- The stored value of a memory operation: absent in a load, usable in a store. -/
abbrev memoryStoredOk (o : MemoryOpcode) : Prop :=
  isMemoryStore o → Γ n.rhs = some (memoryResultType n o)

/-- A load has no second operand. -/
abbrev memoryLoadOk (o : MemoryOpcode) : Prop := ¬ isMemoryStore o → ¬ n.rhs.valid

/-- The memory orders each atomic operation admits. -/
def validAtomicOrder : AtomicOpcode → AtomicMemoryOrder → Bool
  | .load, order => isValidAtomicLoadOrder order
  | .store, order => isValidAtomicStoreOrder order
  | _, _ => true

/-- The rule for atomic accesses. -/
abbrev atomicOk (o : AtomicOpcode) (access : AtomicAccessDescriptor) : Prop :=
  access.memory.region.toNat < t.memoryRegionCount ∧ access.memory.width ≠ .k128 ∧
    access.memory.alignment.toNat = memoryWidthBytes access.memory.width ∧
    access.memory.byteOrder = .native ∧ ¬ access.memory.signExtend ∧
    ¬ access.memory.isVolatile ∧ validAtomicOrder o access.order ∧
    (o ≠ .compareExchange → access.failureOrder = .relaxed ∧ access.strength = .strong) ∧
    (o = .compareExchange → atomicFailureOrderAllowed access.order access.failureOrder) ∧
    0 ≤ n.immediate.toInt ∧ n.type = .word ∧ Γ n.lhs = some .word ∧ noCallArguments n

/-- The input value of an atomic operation: absent in a load, a word otherwise. -/
abbrev atomicInputOk (o : AtomicOpcode) : Prop :=
  if o = .load then ¬ n.rhs.valid else Γ n.rhs = some .word

/-- A compare-exchange has a desired word. -/
abbrev atomicDesiredOk (o : AtomicOpcode) : Prop :=
  o = .compareExchange → Γ n.auxiliary = some .word

/-- The rule for fences. -/
abbrev atomicFenceOk : Prop :=
  (fenceOrderOf n.immediate).any isValidAtomicFenceOrder ∧ n.type = .word ∧ noOperands n ∧
    noCallArguments n

/-- The rule for frame accesses. -/
abbrev frameOk : Prop :=
  n.frameSlot.toNat < t.frameSlots.length ∧ n.immediate = 0 ∧ ¬ n.rhs.valid ∧ noCallArguments n

/-- A frame access has the type of its slot. -/
abbrev frameTypeOk : Prop :=
  t.frameSlots[n.frameSlot.toNat]?.map (·.type) = some n.type

/-- The rule for trusted object accesses. -/
abbrev objectOk : Prop :=
  n.trustedObject.toNat < t.trustedObjects.length ∧ 0 ≤ n.immediate.toInt ∧
    n.immediate.toNat % 8 = 0 ∧ ¬ n.rhs.valid ∧ noCallArguments n ∧ isScalarValueType n.type

/-- The field is inside the object. -/
abbrev objectFieldOk (object : TrustedObjectDescriptor) : Prop :=
  ¬ (object.byteSize < n.immediate.toNat ∨ object.byteSize - n.immediate.toNat < 8)

/-- The rule for reads of patch cells. -/
abbrev loadPatchCellOk : Prop :=
  0 ≤ n.immediate.toInt ∧ n.immediate.toNat < t.patchCells.length ∧ n.type = .word ∧
    noOperands n ∧ noCallArguments n

/-- A guard on a value of type `operand`. -/
abbrev guardOk (operand : ValueType) : Prop :=
  0 ≤ n.immediate.toInt ∧ n.type = .word ∧ Γ n.lhs = some operand ∧ ¬ n.rhs.valid ∧
    noCallArguments n

/-- The rule for safepoints. -/
abbrev safepointOk : Prop :=
  0 ≤ n.immediate.toInt ∧ n.type = .word ∧ noOperands n ∧ noCallArguments n

/-- The type a unary operation takes and gives. -/
def unaryOperandType : UnaryOpcode → ValueType
  | .floatNegate => .float64
  | _ => .word

/-- Only byte swaps use their immediate. -/
def validUnaryImmediate : UnaryOpcode → Word → Bool
  | .byteSwap, immediate => (byteSwapWidthOf immediate).isSome
  | _, immediate => immediate == 0

/-- The rule for unary operations. -/
abbrev unaryOk (o : UnaryOpcode) : Prop :=
  Γ n.lhs = some (unaryOperandType o) ∧ ¬ n.rhs.valid ∧ n.type = unaryOperandType o ∧
    validUnaryImmediate o n.immediate ∧ noCallArguments n

/-- The type a binary operation takes. -/
def binaryOperandType (o : BinaryOpcode) : ValueType :=
  if hasFloatOperands o then .float64 else .word

/-- The type a binary operation gives. -/
def binaryResultType (o : BinaryOpcode) : ValueType :=
  if isFloatComparison o then .word else binaryOperandType o

/-- The rule for binary operations. -/
abbrev binaryTypesOk (o : BinaryOpcode) : Prop :=
  n.type = binaryResultType o ∧ Γ n.lhs = some (binaryOperandType o) ∧
    Γ n.rhs = some (binaryOperandType o)

/-- The descriptor fields an operation does not use hold the invalid index. -/
abbrev unusedDescriptorsOk (memory atomic compareExchange frame object : Bool) : Prop :=
  (memory ∨ n.memoryAccess = kInvalidIndex) ∧ (atomic ∨ n.atomicAccess = kInvalidIndex) ∧
    (compareExchange ∨ ¬ n.auxiliary.valid) ∧ (frame ∨ n.frameSlot = kInvalidIndex) ∧
    (object ∨ n.trustedObject = kInvalidIndex)

end rules

/-! ## Side-table entries -/

namespace SideTables

variable (t : SideTables)

/-- The flat argument range of a call, if it lies inside the table. -/
def callArgumentsOf (n : NodeOf Op) : Option (List Value) :=
  if n.argumentBegin.toNat + n.argumentCount.toNat ≤ t.callArguments.length then
    some ((t.callArguments.drop n.argumentBegin.toNat).take n.argumentCount.toNat)
  else none

/-- Frame slots hold scalars. -/
abbrev frameSlotsScalar : Prop := ∀ slot ∈ t.frameSlots, isScalarValueType slot.type

/-- The sizes of trusted objects are whole numbers of words, and their layouts are named. -/
abbrev trustedObjectsOk : Prop :=
  ∀ object ∈ t.trustedObjects, object.layoutIdentity ≠ 0 ∧ 8 ≤ object.byteSize ∧
    object.byteSize ≤ kMaximumByteSize ∧ object.byteSize % 8 = 0

/-- Fast calls take and give scalars. -/
abbrev fastCallsScalar : Prop :=
  ∀ call ∈ t.fastCalls, isScalarValueType call.returnType ∧
    ∀ type ∈ call.parameterTypes, isScalarValueType type

/-- The sizes of the index-addressed tables stay below the invalid index. -/
abbrev indexRangesOk : Prop :=
  t.memoryRegionCount ≤ kInvalidIndex.toNat ∧ t.frameSlots.length ≤ kInvalidIndex.toNat ∧
    t.trustedObjects.length ≤ kInvalidIndex.toNat ∧
    t.patchCells.length ≤ kInvalidIndex.toNat ∧ t.fastCalls.length ≤ kInvalidIndex.toNat

/-- What both verifiers require of the tables that nodes share. -/
structure Sound : Prop where
  indexRanges : t.indexRangesOk
  frameSlots : t.frameSlotsScalar
  trustedObjects : t.trustedObjectsOk
  fastCalls : t.fastCallsScalar

end SideTables

/-! ## The judgement -/

/-- **Well-typed nodes**: the conditions both verifiers impose on a node of operation `o`, over an
operand context `Γ` and side tables `t`. -/
def Typed (t : SideTables) (Γ : Value → Option ValueType) (o : Operation) (n : NodeOf Op) :
    Prop :=
  match o with
  | .constant => constantOk n
  | .binary o => binaryTypesOk Γ n o ∧ noCallArguments n
  | .unary o => unaryOk Γ n o
  | .guardWordNonzero => guardOk Γ n .word
  | .guardFloatNonzero => guardOk Γ n .float64
  | .call =>
      callTargetOk n ∧ ∃ arguments, t.callArgumentsOf n = some arguments ∧
        ∀ a ∈ arguments, (Γ a).any isScalarValueType
  | .fastCall =>
      fastCallTargetOk t n ∧ ∃ descriptor arguments,
        t.fastCalls[n.immediate.toNat]? = some descriptor ∧
        t.callArgumentsOf n = some arguments ∧ n.type = descriptor.returnType ∧
        arguments.map Γ = descriptor.parameterTypes.map some
  | .safepoint => safepointOk n
  | .memory o =>
      ∃ access, t.memoryAccesses[n.memoryAccess.toNat]? = some access ∧ memoryOk Γ t n o access ∧
        memoryLoadOk n o ∧ memoryStoredOk Γ n o
  | .atomic o =>
      ∃ access, t.atomicAccesses[n.atomicAccess.toNat]? = some access ∧ atomicOk Γ t n o access ∧
        atomicInputOk Γ n o ∧ atomicDesiredOk Γ n o
  | .atomicFence => atomicFenceOk n
  | .loadFrame => frameOk t n ∧ frameTypeOk t n ∧ ¬ n.lhs.valid
  | .storeFrame => frameOk t n ∧ frameTypeOk t n ∧ Γ n.lhs = some n.type
  | .loadObject =>
      objectOk t n ∧ (∃ object, t.trustedObjects[n.trustedObject.toNat]? = some object ∧
        objectFieldOk n object) ∧ ¬ n.lhs.valid
  | .storeObject =>
      objectOk t n ∧ (∃ object, t.trustedObjects[n.trustedObject.toNat]? = some object ∧
        objectFieldOk n object) ∧ Γ n.lhs = some n.type
  | .loadPatchCell => loadPatchCellOk t n
  | .vectorConstant =>
      isVectorValueType n.type ∧ 0 ≤ n.immediate.toInt ∧ noOperands n ∧ noCallArguments n ∧
        ∃ bits, t.vectorConstants[n.immediate.toNat]? = some bits ∧
          (isMaskVectorType n.type → vectorMaskIsCanonical bits n.type)
  | .vectorSplat => vectorSplatOk Γ n
  | .vectorExtractLane => vectorExtractLaneOk Γ n
  | .vectorInsertLane => vectorInsertLaneOk Γ n
  | .vectorUnary => vectorUnaryOk Γ n
  | .vectorBinary => vectorBinaryOk Γ n
  | .vectorCompare => vectorCompareOk Γ n
  | .vectorSelect =>
      0 ≤ n.immediate.toInt ∧ ∃ third, t.vectorSelectArguments[n.immediate.toNat]? = some third ∧
        vectorSelectOk Γ n third
  | .vectorLaneSignMask => vectorLaneSignMaskOk Γ n
  | .vectorShuffle =>
      0 ≤ n.immediate.toInt ∧ vectorShuffleOk Γ n ∧
        ∃ shuffle, t.vectorShuffles[n.immediate.toNat]? = some shuffle ∧
          shuffleLaneCountOk n shuffle ∧ shuffleLanesOk shuffle
  | .vectorWiden => vectorWidenOk Γ n

end UniJit.Ir
