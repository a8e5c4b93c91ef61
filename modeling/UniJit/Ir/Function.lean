import UniJit.Status
import UniJit.Ir.Vector

/-!
# Straight-line functions

The data model of the intermediate representation: value handles, the descriptors of memory,
atomic, frame, object, patch-cell and fast-call operations, nodes, side tables, and the
straight-line `Function`.

The source has two opcode enumerations, `Opcode` and `ControlOpcode`, that list the same
operations in different orders. The shared part is `Operation` here, grouped by the families
the source's predicates name (`is_binary`, `is_unary`, `is_memory`, `is_atomic_access`); the byte
value of an opcode is its position in `Opcode.order`, which follows the source's declaration.

A side table is a list; `parameter_count_` always equals `parameter_types_.size()` in the source
and is the length of the list here.
-/

namespace UniJit.Ir

/-- The 32-bit index that stands for "no value", "no block", "no descriptor". -/
def kInvalidIndex : BitVec 32 := BitVec.allOnes 32

/-- A handle of an SSA value. -/
structure Value where
  id : BitVec 32 := kInvalidIndex
  deriving DecidableEq, Repr

namespace Value

/-- The handle that denotes no value. -/
def invalid : Value := {}

/-- A handle other than the reserved one. -/
abbrev valid (v : Value) : Prop := v.id ≠ kInvalidIndex

/-- The position a handle denotes. -/
abbrev index (v : Value) : Nat := v.id.toNat

/-- The handle of a position. -/
def ofIndex (n : Nat) : Value := ⟨BitVec.ofNat 32 n⟩

/-- Below the reserved handle the index comes back. -/
lemma index_ofIndex {n : Nat} (h : n < kInvalidIndex.toNat) : (Value.ofIndex n).index = n := by
  have hmax : kInvalidIndex.toNat = 2 ^ 32 - 1 := by decide
  simp only [ofIndex, index, BitVec.toNat_ofNat]
  omega

/-- An index below the reserved handle is of a valid value. -/
lemma valid_of_index_lt {v : Value} (h : v.index < kInvalidIndex.toNat) : v.valid := by
  intro heq
  rw [index, heq] at h
  exact lt_irrefl _ h

lemma valid_ofIndex {n : Nat} (h : n < kInvalidIndex.toNat) : (Value.ofIndex n).valid :=
  valid_of_index_lt (by rwa [index_ofIndex h])

end Value

/-! ## Descriptors -/

/-- The width of a memory access in bits. -/
inductive MemoryWidth
  | k8 | k16 | k32 | k64 | k128
  deriving DecidableEq, Repr

/-- The byte order of a memory access. -/
inductive MemoryByteOrder
  | native | littleEndian | bigEndian
  deriving DecidableEq, Repr

/-- The side table's record of a memory access. -/
structure MemoryAccessDescriptor where
  region : BitVec 32 := 0
  aliasClass : BitVec 32 := 0
  width : MemoryWidth := .k8
  alignment : Byte := 1
  byteOrder : MemoryByteOrder := .native
  signExtend : Bool := false
  isVolatile : Bool := false
  deriving DecidableEq, Repr

/-- The width of a memory access in bytes. -/
def memoryWidthBytes : MemoryWidth → Nat
  | .k8 => 1
  | .k16 => 2
  | .k32 => 4
  | .k64 => 8
  | .k128 => 16

/-- The orders of atomic operations. -/
inductive AtomicMemoryOrder
  | relaxed | acquire | release | acquireRelease | sequentiallyConsistent
  deriving DecidableEq, Repr

/-- Whether a compare-exchange may fail spuriously. -/
inductive AtomicCompareExchangeStrength
  | strong | weak
  deriving DecidableEq, Repr

/-- The side table's record of an atomic access. -/
structure AtomicAccessDescriptor where
  memory : MemoryAccessDescriptor := {}
  order : AtomicMemoryOrder := .sequentiallyConsistent
  failureOrder : AtomicMemoryOrder := .relaxed
  strength : AtomicCompareExchangeStrength := .strong
  deriving DecidableEq, Repr

/-- The orders as the enumeration numbers them. -/
def AtomicMemoryOrder.enumOrder : List AtomicMemoryOrder :=
  [.relaxed, .acquire, .release, .acquireRelease, .sequentiallyConsistent]

/-- The orders an atomic load admits. -/
def isValidAtomicLoadOrder : AtomicMemoryOrder → Bool
  | .relaxed | .acquire | .sequentiallyConsistent => true
  | _ => false

/-- The orders an atomic store admits. -/
def isValidAtomicStoreOrder : AtomicMemoryOrder → Bool
  | .relaxed | .release | .sequentiallyConsistent => true
  | _ => false

/-- The orders a failed compare-exchange admits. -/
def isValidAtomicFailureOrder : AtomicMemoryOrder → Bool
  | .relaxed | .acquire | .sequentiallyConsistent => true
  | _ => false

/-- The orders a fence admits. -/
def isValidAtomicFenceOrder : AtomicMemoryOrder → Bool
  | .relaxed => false
  | _ => true

/-- A failure order is no stronger than the success order it goes with. -/
def atomicFailureOrderAllowed (success failure : AtomicMemoryOrder) : Bool :=
  if ¬ isValidAtomicFailureOrder failure then false
  else if failure = .sequentiallyConsistent then success == .sequentiallyConsistent
  else if failure = .acquire then
    success == .acquire || success == .acquireRelease || success == .sequentiallyConsistent
  else true

/-- The type of a frame slot, and whether its contents are sensitive. -/
structure FrameSlotDescriptor where
  type : ValueType := .word
  sensitive : Bool := false
  deriving DecidableEq, Repr

/-- The layout and the size of a trusted object. -/
structure TrustedObjectDescriptor where
  layoutIdentity : BitVec 64 := 0
  byteSize : Nat := 0
  deriving DecidableEq, Repr

/-- The largest trusted object, in bytes. -/
def kMaximumByteSize : Nat := 2048

/-- What a patch cell is used for. -/
inductive PatchCellKind
  | value | target | shape | generation | counter
  deriving DecidableEq, Repr

/-- A patch cell with its initial value. -/
structure PatchCellDescriptor where
  initialValue : Word := 0
  kind : PatchCellKind := .value
  deriving DecidableEq, Repr

/-- The signature of a fast-call target. -/
structure FastCallDescriptor where
  parameterTypes : List ValueType := []
  returnType : ValueType := .word
  deriving DecidableEq, Repr

/-! ## Operations -/

/-- The binary opcodes. -/
inductive BinaryOpcode
  | add | subtract | multiply
  | bitwiseAnd | bitwiseOr | bitwiseXor | shiftLeft
  | floorDivide | floorModulo
  | lessThan | lessEqual | equal | notEqual
  | floatAdd | floatSubtract | floatMultiply | floatDivide
  | floatLessThan | floatLessEqual | floatEqual | floatNotEqual
  deriving DecidableEq, Repr

/-- The unary opcodes. -/
inductive UnaryOpcode
  | negate | bitwiseNot | byteSwap | floatNegate
  deriving DecidableEq, Repr

/-- The bounded memory opcodes. -/
inductive MemoryOpcode
  | loadWord | storeWord | loadFloat | storeFloat | loadVector | storeVector
  deriving DecidableEq, Repr

/-- The atomic opcodes. -/
inductive AtomicOpcode
  | load | store | exchange | compareExchange | fetchAdd | fetchAnd | fetchOr | fetchXor
  deriving DecidableEq, Repr

/-- The operations that both function kinds share. -/
inductive Operation
  | constant
  | binary (o : BinaryOpcode)
  | unary (o : UnaryOpcode)
  | guardWordNonzero
  | guardFloatNonzero
  | call
  | fastCall
  | safepoint
  | memory (o : MemoryOpcode)
  | atomic (o : AtomicOpcode)
  | atomicFence
  | loadFrame
  | storeFrame
  | loadObject
  | storeObject
  | loadPatchCell
  | vectorConstant
  | vectorSplat
  | vectorExtractLane
  | vectorInsertLane
  | vectorUnary
  | vectorBinary
  | vectorCompare
  | vectorSelect
  | vectorLaneSignMask
  | vectorShuffle
  | vectorWiden
  deriving DecidableEq, Repr

/-- The binary opcodes that take Float64 operands. -/
def hasFloatOperands : BinaryOpcode → Bool
  | .floatAdd | .floatSubtract | .floatMultiply | .floatDivide => true
  | .floatLessThan | .floatLessEqual | .floatEqual | .floatNotEqual => true
  | _ => false

/-- The Float64 comparisons. -/
def isFloatComparison : BinaryOpcode → Bool
  | .floatLessThan | .floatLessEqual | .floatEqual | .floatNotEqual => true
  | _ => false

/-- The Float64 accesses. -/
def isFloatMemory : MemoryOpcode → Bool
  | .loadFloat | .storeFloat => true
  | _ => false

/-- The stores. -/
def isMemoryStore : MemoryOpcode → Bool
  | .storeWord | .storeFloat | .storeVector => true
  | _ => false

/-- The vector accesses. -/
def isVectorMemory : MemoryOpcode → Bool
  | .loadVector | .storeVector => true
  | _ => false

namespace Operation

/-- A bounded memory access. -/
def isMemory : Operation → Bool
  | .memory _ => true
  | _ => false

/-- An atomic access. -/
def isAtomicAccess : Operation → Bool
  | .atomic _ => true
  | _ => false

/-- An access to a frame slot. -/
def isFrame : Operation → Bool
  | .loadFrame | .storeFrame => true
  | _ => false

/-- An access to a trusted object. -/
def isObject : Operation → Bool
  | .loadObject | .storeObject => true
  | _ => false

/-- The operations that may leave the function at a numbered exit site. -/
def isRuntimeExit : Operation → Bool
  | .guardWordNonzero | .guardFloatNonzero | .safepoint => true
  | .memory _ | .atomic _ => true
  | _ => false

end Operation

/-- The opcode of a straight-line node. -/
inductive Opcode
  | parameter
  | op (o : Operation)
  deriving DecidableEq, Repr

/-- The declaration order of the straight-line opcodes; the position is the byte value. -/
def Opcode.order : List Opcode :=
  .parameter :: List.map Opcode.op
    [.constant,
     .binary .add, .binary .subtract, .binary .multiply,
     .binary .bitwiseAnd, .binary .bitwiseOr, .binary .bitwiseXor, .binary .shiftLeft,
     .binary .floorDivide, .binary .floorModulo,
     .binary .lessThan, .binary .lessEqual, .binary .equal, .binary .notEqual,
     .unary .negate, .unary .bitwiseNot, .unary .byteSwap,
     .binary .floatAdd, .binary .floatSubtract, .unary .floatNegate,
     .binary .floatMultiply, .binary .floatDivide,
     .binary .floatLessThan, .binary .floatLessEqual, .binary .floatEqual,
     .binary .floatNotEqual,
     .guardWordNonzero, .guardFloatNonzero, .call, .fastCall, .safepoint,
     .memory .loadWord, .memory .storeWord, .memory .loadFloat, .memory .storeFloat,
     .memory .loadVector, .memory .storeVector,
     .atomic .load, .atomic .store, .atomic .exchange, .atomic .compareExchange,
     .atomic .fetchAdd, .atomic .fetchAnd, .atomic .fetchOr, .atomic .fetchXor, .atomicFence,
     .loadFrame, .storeFrame, .loadObject, .storeObject, .loadPatchCell,
     .vectorConstant, .vectorSplat, .vectorExtractLane, .vectorInsertLane,
     .vectorUnary, .vectorBinary, .vectorCompare, .vectorSelect,
     .vectorLaneSignMask, .vectorShuffle, .vectorWiden]

-- the table ends at the byte value that the package format relies on
example : enumCode Opcode.order (.op .vectorWiden) = 62 := by decide

/-! ## Nodes and functions -/

/-- An SSA node over an opcode type: `Node` for straight-line functions, `ControlNode` for
control-flow graphs. -/
structure NodeOf (Op : Type) where
  opcode : Op
  lhs : Value := .invalid
  rhs : Value := .invalid
  immediate : Word := 0
  type : ValueType := .word
  argumentBegin : BitVec 32 := 0
  argumentCount : BitVec 32 := 0
  memoryAccess : BitVec 32 := kInvalidIndex
  frameSlot : BitVec 32 := kInvalidIndex
  trustedObject : BitVec 32 := kInvalidIndex
  auxiliary : Value := .invalid
  atomicAccess : BitVec 32 := kInvalidIndex
  deriving DecidableEq, Repr

/-- A node of a straight-line function. -/
abbrev Node := NodeOf Opcode

/-- The tables that both function kinds carry beside their nodes. -/
structure SideTables where
  callArguments : List Value := []
  fastCalls : List FastCallDescriptor := []
  memoryRegionCount : Nat := 0
  memoryAccesses : List MemoryAccessDescriptor := []
  atomicAccesses : List AtomicAccessDescriptor := []
  frameSlots : List FrameSlotDescriptor := []
  trustedObjects : List TrustedObjectDescriptor := []
  patchCells : List PatchCellDescriptor := []
  vectorConstants : List Vector128 := []
  vectorShuffles : List VectorShuffle := []
  vectorSelectArguments : List Value := []
  deriving DecidableEq, Repr

/-- A straight-line function. -/
structure Function extends SideTables where
  parameterTypes : List ValueType := []
  nodes : List Node := []
  returnValue : Value := .invalid
  deriving DecidableEq, Repr

namespace Function

/-- The number of parameters. -/
def parameterCount (f : Function) : Nat := f.parameterTypes.length

/-- The type of a parameter, a word past the declared ones. -/
def parameterType (f : Function) (index : Nat) : ValueType :=
  f.parameterTypes.getD index .word

/-- The declared type of a value; a handle that denotes no node reads as `word`. -/
def valueType (f : Function) (v : Value) : ValueType :=
  if v.valid then (f.nodes[v.index]?.map (·.type)).getD .word else .word

/-- The type of the returned value. -/
def returnType (f : Function) : ValueType := f.valueType f.returnValue

end Function

end UniJit.Ir
