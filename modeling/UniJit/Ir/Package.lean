import UniJit.Ir.ControlFlowVerifier
import UniJit.Ir.PackageSha256
import UniJit.Ir.Verifier
import UniJit.Lib.Reading

/-!
# Portable packages

The byte format for functions and control-flow graphs: a header of 64 bytes with a digest of the
payload, a manifest of 24 words that counts every table, and the tables one after another. The
encoder writes a verified function without helper calls; the decoder reads untrusted bytes, checks
every field and verifies what it has read.

Writers are byte lists. Readers are the monitored readers of `UniJit.Lib.Reading`, and the size
arithmetic of both sides is monitored too: `Failure.fault` marks a read outside the input, a size
that leaves 64 bits, or a table larger than the payload, none of which the source reports as an
error of its own.
-/

namespace UniJit.Ir

open UniJit.Lib UniJit.Lib.Reading

/-! ## Constants, limits, metadata -/

/-- The version of the format. -/
def kPortableIrFormatVersion : BitVec 16 := 1

/-- The bytes of the digest. -/
def kPortableIrDigestSize : Nat := 32

/-- The bytes every package begins with. -/
def kMagic : List Byte := [0x55, 0x4e, 0x49, 0x4a, 0x49, 0x52, 0, 1]

/-- The bytes of the header. -/
def kHeaderSize : Nat := 64

/-- The words of the manifest. -/
def kManifestWords : Nat := 24

/-- The bytes of the manifest. -/
def kManifestSize : Nat := 96

/-- The bytes of a node. -/
def kNodeRecordSize : Nat := 48

/-- The bytes of a fast call before its parameter types. -/
def kFastCallRecordSize : Nat := 8

/-- The bytes of a memory access. -/
def kMemoryRecordSize : Nat := 12

/-- The bytes of an atomic access. -/
def kAtomicRecordSize : Nat := 16

/-- The bytes of a frame slot. -/
def kFrameRecordSize : Nat := 4

/-- The bytes of a trusted object. -/
def kTrustedObjectRecordSize : Nat := 16

/-- The bytes of a patch cell. -/
def kPatchCellRecordSize : Nat := 16

/-- The bytes of a vector constant. -/
def kVectorConstantRecordSize : Nat := 16

/-- The bytes of a shuffle. -/
def kVectorShuffleRecordSize : Nat := 24

/-- The bytes of a block before its lists. -/
def kBlockRecordSize : Nat := 32

/-- The revision of the payload's layout. -/
def kSchemaRevision : BitVec 32 := 1

/-- The largest value of the source's size type. -/
def kMaximumSize : Nat := 2 ^ 64 - 1

/-- What a package holds. -/
inductive PortableIrKind
  | function
  | controlFlow
  deriving DecidableEq, Repr

/-- The byte of a kind. -/
def PortableIrKind.code : PortableIrKind → Byte
  | .function => 1
  | .controlFlow => 2

/-- What a reader or writer is ready to handle, with the defaults. -/
structure PortableIrLimits where
  maximumPackageBytes : Nat := 64 * 1024 * 1024
  maximumParameters : Nat := 256
  maximumNodes : Nat := 64 * 1024
  maximumBlocks : Nat := 1024
  maximumCallArguments : Nat := 256 * 1024
  maximumEdgeArguments : Nat := 256 * 1024
  maximumFastCalls : Nat := 64
  maximumFastCallSignatureValues : Nat := 16 * 1024
  maximumMemoryRegions : Nat := 64
  maximumMemoryAccesses : Nat := 64 * 1024
  maximumAtomicAccesses : Nat := 64 * 1024
  maximumFrameSlots : Nat := 256
  maximumTrustedObjects : Nat := 64
  maximumPatchCells : Nat := 256
  maximumVectorConstants : Nat := 64 * 1024
  maximumVectorShuffles : Nat := 64 * 1024
  maximumVectorSelectArguments : Nat := 64 * 1024

/-- What is reported about a package. -/
structure PortableIrMetadata where
  kind : PortableIrKind
  formatVersion : BitVec 16
  packageBytes : Nat
  payloadBytes : Nat
  parameterCount : Nat
  nodeCount : Nat
  blockCount : Nat
  callArgumentCount : Nat
  edgeArgumentCount : Nat
  payloadSha256 : List Byte
  deriving DecidableEq, Repr

/-- The refusal of a malformed package. -/
def invalidPackage (message : String) (location : Nat := 0) : Status :=
  ⟨.invalidIr, message, location⟩

/-- The refusal of a package beyond the limits. -/
def exhaustedPackage (message : String) : Status := ⟨.resourceExhausted, message, 0⟩

/-! ## Manifest -/

/-- The manifest: the counts of all tables, in the order of the source's index enumeration. -/
structure Manifest where
  schema : BitVec 32 := 0
  parameters : BitVec 32 := 0
  nodes : BitVec 32 := 0
  callArguments : BitVec 32 := 0
  fastCalls : BitVec 32 := 0
  fastCallSignatureValues : BitVec 32 := 0
  memoryRegions : BitVec 32 := 0
  memoryAccesses : BitVec 32 := 0
  atomicAccesses : BitVec 32 := 0
  frameSlots : BitVec 32 := 0
  trustedObjects : BitVec 32 := 0
  patchCells : BitVec 32 := 0
  vectorConstants : BitVec 32 := 0
  vectorShuffles : BitVec 32 := 0
  vectorSelectArguments : BitVec 32 := 0
  blocks : BitVec 32 := 0
  blockInstructionReferences : BitVec 32 := 0
  edgeArguments : BitVec 32 := 0
  returnValue : BitVec 32 := 0
  entryBlock : BitVec 32 := 0
  reserved0 : BitVec 32 := 0
  reserved1 : BitVec 32 := 0
  reserved2 : BitVec 32 := 0
  reserved3 : BitVec 32 := 0
  deriving DecidableEq, Repr

namespace Manifest

/-- The 24 words of a manifest. -/
def words (m : Manifest) : List (BitVec 32) :=
  [m.schema, m.parameters, m.nodes, m.callArguments, m.fastCalls, m.fastCallSignatureValues,
   m.memoryRegions, m.memoryAccesses, m.atomicAccesses, m.frameSlots, m.trustedObjects,
   m.patchCells, m.vectorConstants, m.vectorShuffles, m.vectorSelectArguments, m.blocks,
   m.blockInstructionReferences, m.edgeArguments, m.returnValue, m.entryBlock,
   m.reserved0, m.reserved1, m.reserved2, m.reserved3]

/-- The manifest with the given words. -/
def ofWords (words : List (BitVec 32)) : Manifest where
  schema := words.getD 0 0
  parameters := words.getD 1 0
  nodes := words.getD 2 0
  callArguments := words.getD 3 0
  fastCalls := words.getD 4 0
  fastCallSignatureValues := words.getD 5 0
  memoryRegions := words.getD 6 0
  memoryAccesses := words.getD 7 0
  atomicAccesses := words.getD 8 0
  frameSlots := words.getD 9 0
  trustedObjects := words.getD 10 0
  patchCells := words.getD 11 0
  vectorConstants := words.getD 12 0
  vectorShuffles := words.getD 13 0
  vectorSelectArguments := words.getD 14 0
  blocks := words.getD 15 0
  blockInstructionReferences := words.getD 16 0
  edgeArguments := words.getD 17 0
  returnValue := words.getD 18 0
  entryBlock := words.getD 19 0
  reserved0 := words.getD 20 0
  reserved1 := words.getD 21 0
  reserved2 := words.getD 22 0
  reserved3 := words.getD 23 0

end Manifest

/-! ## Monitored size arithmetic -/

/-- Addition with an overflow check; `none` is the source's `false`. -/
def checkedAdd (value increment : Nat) : Except (Failure Status) (Option Nat) :=
  if kMaximumSize - value < increment then .ok none
  else if value + increment ≤ kMaximumSize then .ok (some (value + increment))
  else .error (.fault .sizeWraps)

/-- Adds `count` records to a size, unless the sum leaves the size type. -/
def checkedAddProduct (value count elementSize : Nat) : Except (Failure Status) (Option Nat) :=
  if elementSize ≠ 0 ∧ kMaximumSize / elementSize < count then .ok none
  else if count * elementSize ≤ kMaximumSize then checkedAdd value (count * elementSize)
  else .error (.fault .sizeWraps)

/-- Subtraction of sizes. -/
def subtractSize (a b : Nat) : Except (Failure Status) Nat :=
  if b ≤ a then .ok (a - b) else .error (.fault .sizeWraps)

/-- Refuses unless a condition holds. -/
def rejectUnless (c : Prop) [Decidable c] (e : Status) : Except (Failure Status) Unit :=
  require c (.rejected e)

/-- Narrows a size, refused when it does not fit. -/
def sizeToU32 (value : Nat) (e : Status) : Except (Failure Status) (BitVec 32) := do
  rejectUnless (value ≤ 2 ^ 32 - 1) e
  pure (BitVec.ofNat 32 value)

/-- Add up record sizes, giving up at an overflow. -/
def addProducts : List (BitVec 32 × Nat) → Nat → Except (Failure Status) (Option Nat)
  | [], size => .ok (some size)
  | (count, recordSize) :: rest, size => do
      match ← checkedAddProduct size count.toNat recordSize with
      | none => .ok none
      | some size => addProducts rest size

/-- The tables of a payload: their counts and record sizes. -/
def Manifest.records (m : Manifest) : List (BitVec 32 × Nat) :=
  [(m.parameters, 1), (m.nodes, kNodeRecordSize), (m.callArguments, 4),
   (m.fastCalls, kFastCallRecordSize), (m.fastCallSignatureValues, 1),
   (m.memoryAccesses, kMemoryRecordSize), (m.atomicAccesses, kAtomicRecordSize),
   (m.frameSlots, kFrameRecordSize), (m.trustedObjects, kTrustedObjectRecordSize),
   (m.patchCells, kPatchCellRecordSize), (m.vectorConstants, kVectorConstantRecordSize),
   (m.vectorShuffles, kVectorShuffleRecordSize), (m.vectorSelectArguments, 4),
   (m.blocks, kBlockRecordSize), (m.blockInstructionReferences, 4), (m.edgeArguments, 4)]

/-- The size of the payload that a manifest announces. -/
def expectedPayloadSize (m : Manifest) : Except (Failure Status) Nat := do
  match ← addProducts m.records kManifestSize with
  | none => .error (.rejected (invalidPackage "portable IR size arithmetic overflow"))
  | some size => .ok size

/-- Compares every count of the manifest with the limits. -/
def validateManifestLimits (m : Manifest) (kind : PortableIrKind) (limits : PortableIrLimits) :
    Except (Failure Status) Unit := do
  rejectUnless (m.parameters.toNat ≤ limits.maximumParameters)
    (exhaustedPackage "portable IR parameter limit exceeded")
  rejectUnless (m.nodes.toNat ≤ limits.maximumNodes)
    (exhaustedPackage "portable IR node limit exceeded")
  rejectUnless (m.blocks.toNat ≤ limits.maximumBlocks)
    (exhaustedPackage "portable IR block limit exceeded")
  rejectUnless (m.callArguments.toNat ≤ limits.maximumCallArguments)
    (exhaustedPackage "portable IR call-argument limit exceeded")
  rejectUnless (m.edgeArguments.toNat ≤ limits.maximumEdgeArguments)
    (exhaustedPackage "portable IR edge-argument limit exceeded")
  rejectUnless (m.fastCalls.toNat ≤ limits.maximumFastCalls ∧
      m.fastCallSignatureValues.toNat ≤ limits.maximumFastCallSignatureValues)
    (exhaustedPackage "portable IR fast-call limit exceeded")
  rejectUnless (m.memoryRegions.toNat ≤ limits.maximumMemoryRegions ∧
      m.memoryAccesses.toNat ≤ limits.maximumMemoryAccesses)
    (exhaustedPackage "portable IR memory limit exceeded")
  rejectUnless (m.atomicAccesses.toNat ≤ limits.maximumAtomicAccesses)
    (exhaustedPackage "portable IR atomic limit exceeded")
  rejectUnless (m.frameSlots.toNat ≤ limits.maximumFrameSlots)
    (exhaustedPackage "portable IR frame-slot limit exceeded")
  rejectUnless (m.trustedObjects.toNat ≤ limits.maximumTrustedObjects)
    (exhaustedPackage "portable IR trusted-object limit exceeded")
  rejectUnless (m.patchCells.toNat ≤ limits.maximumPatchCells)
    (exhaustedPackage "portable IR patch-cell limit exceeded")
  rejectUnless (m.vectorConstants.toNat ≤ limits.maximumVectorConstants ∧
      m.vectorShuffles.toNat ≤ limits.maximumVectorShuffles ∧
      m.vectorSelectArguments.toNat ≤ limits.maximumVectorSelectArguments)
    (exhaustedPackage "portable IR vector side-table limit exceeded")
  match kind with
  | .function =>
      rejectUnless (m.blocks = 0 ∧ m.blockInstructionReferences = 0 ∧ m.edgeArguments = 0 ∧
          m.entryBlock = kInvalidIndex)
        (invalidPackage "straight-line package has CFG state")
  | .controlFlow =>
      rejectUnless (m.returnValue = kInvalidIndex ∧ m.entryBlock = 0 ∧ m.blocks ≠ 0 ∧
          m.blockInstructionReferences = m.nodes)
        (invalidPackage "CFG package manifest is inconsistent")

/-! ## Byte codes of enumerations -/

/-- The byte of an enumeration value: its position in the declaration order. -/
def enumByte {α : Type} [DecidableEq α] (order : List α) (a : α) : Byte :=
  BitVec.ofNat 8 (enumCode order a)

/-- The enumeration value of a byte, if there is one. -/
def enumOfByte {α : Type} (order : List α) (b : Byte) : Option α := enumOfCode order b.toNat

/-- The byte orders as they are numbered. -/
def MemoryByteOrder.order : List MemoryByteOrder := [.native, .littleEndian, .bigEndian]

/-- The strengths as they are numbered. -/
def AtomicCompareExchangeStrength.enumOrder : List AtomicCompareExchangeStrength :=
  [.strong, .weak]

/-- The kinds of patch cells as they are numbered. -/
def PatchCellKind.order : List PatchCellKind := [.value, .target, .shape, .generation, .counter]

/-- A width is written as its number of bytes. -/
def MemoryWidth.code (width : MemoryWidth) : Byte := BitVec.ofNat 8 (memoryWidthBytes width)

/-- The width with a number of bytes. -/
def decodeMemoryWidth (encoded : Byte) : Option MemoryWidth :=
  [MemoryWidth.k8, .k16, .k32, .k64, .k128].find? (·.code == encoded)

/-! ## Writers -/

section writers

variable {Op : Type} [DecidableEq Op]

/-- Writes a node. -/
def writeNode (order : List Op) (n : NodeOf Op) : List Byte :=
  [enumByte order n.opcode] ++ [enumByte ValueType.order n.type] ++ leBytes 2 (0 : BitVec 16) ++
    leBytes 4 n.lhs.id ++ leBytes 4 n.rhs.id ++ leBytes 4 n.auxiliary.id ++
    leBytes 4 n.argumentBegin ++ leBytes 4 n.argumentCount ++ leBytes 4 n.memoryAccess ++
    leBytes 4 n.frameSlot ++ leBytes 4 n.trustedObject ++ leBytes 4 n.atomicAccess ++
    leBytes 8 n.immediate

/-- Writes a value handle. -/
def writeValue (v : Value) : List Byte := leBytes 4 v.id

/-- Writes a type. -/
def writeType (type : ValueType) : List Byte := [enumByte ValueType.order type]

/-- The flag bits of a memory access. -/
def memoryFlags (access : MemoryAccessDescriptor) : Byte :=
  (if access.signExtend then 1 else 0) ||| (if access.isVolatile then 2 else 0)

/-- Writes a memory access. -/
def writeMemory (access : MemoryAccessDescriptor) : List Byte :=
  leBytes 4 access.region ++ leBytes 4 access.aliasClass ++ [access.width.code] ++
    [access.alignment] ++ [enumByte MemoryByteOrder.order access.byteOrder] ++ [memoryFlags access]

/-- Writes a fast call without its parameter types. -/
def writeFastCallHeader (descriptor : FastCallDescriptor) : List Byte :=
  [enumByte ValueType.order descriptor.returnType] ++ [0] ++ leBytes 2 (0 : BitVec 16) ++
    leBytes 4 (BitVec.ofNat 32 descriptor.parameterTypes.length)

/-- Writes an atomic access. -/
def writeAtomic (access : AtomicAccessDescriptor) : List Byte :=
  writeMemory access.memory ++ [enumByte AtomicMemoryOrder.enumOrder access.order] ++
    [enumByte AtomicMemoryOrder.enumOrder access.failureOrder] ++
    [enumByte AtomicCompareExchangeStrength.enumOrder access.strength] ++ [0]

/-- Writes a frame slot. -/
def writeFrameSlot (slot : FrameSlotDescriptor) : List Byte :=
  [enumByte ValueType.order slot.type] ++ [if slot.sensitive then 1 else 0] ++
    leBytes 2 (0 : BitVec 16)

/-- Writes a trusted object. -/
def writeTrustedObject (object : TrustedObjectDescriptor) : List Byte :=
  leBytes 8 object.layoutIdentity ++ leBytes 8 (BitVec.ofNat 64 object.byteSize)

/-- Writes a patch cell. -/
def writePatchCell (cell : PatchCellDescriptor) : List Byte :=
  leBytes 8 cell.initialValue ++ [enumByte PatchCellKind.order cell.kind] ++ List.replicate 7 0

/-- Writes a vector constant. -/
def writeVectorConstant (constant : Vector128) : List Byte := leBytes 16 constant

/-- Writes a shuffle. -/
def writeVectorShuffle (shuffle : VectorShuffle) : List Byte :=
  shuffle.lanes.toList ++ [shuffle.laneCount] ++ List.replicate 7 0

/-- The tables behind the nodes. -/
def writeAfterNodes (t : SideTables) : List Byte :=
  t.callArguments.flatMap writeValue ++ t.fastCalls.flatMap writeFastCallHeader ++
    t.fastCalls.flatMap (fun descriptor => descriptor.parameterTypes.flatMap writeType) ++
    t.memoryAccesses.flatMap writeMemory ++ t.atomicAccesses.flatMap writeAtomic ++
    t.frameSlots.flatMap writeFrameSlot ++ t.trustedObjects.flatMap writeTrustedObject ++
    t.patchCells.flatMap writePatchCell ++ t.vectorConstants.flatMap writeVectorConstant ++
    t.vectorShuffles.flatMap writeVectorShuffle ++ t.vectorSelectArguments.flatMap writeValue

/-- The manifest and the tables that both kinds have. -/
def writeCommon (order : List Op) (parameterTypes : List ValueType) (nodes : List (NodeOf Op))
    (t : SideTables) (m : Manifest) : List Byte :=
  m.words.flatMap (leBytes 4) ++ (parameterTypes.flatMap writeType ++
    (nodes.flatMap (writeNode order) ++ writeAfterNodes t))

/-- The byte of a terminator. -/
def terminatorByte : ControlTerminator → Byte
  | .none => 0
  | .ret _ => 1
  | .jump _ => 2
  | .branch _ _ _ => 3

/-- Writes a block with its lists. -/
def writeBlock (block : BasicBlock) : List Byte :=
  leBytes 4 (BitVec.ofNat 32 block.parameters.length) ++
    leBytes 4 (BitVec.ofNat 32 block.instructions.length) ++ [terminatorByte block.terminator] ++
    [0] ++ leBytes 2 (0 : BitVec 16) ++ leBytes 4 block.terminator.value.id ++
    leBytes 4 block.terminator.trueEdge.target.id ++
    leBytes 4 (BitVec.ofNat 32 block.terminator.trueEdge.arguments.length) ++
    leBytes 4 block.terminator.falseEdge.target.id ++
    leBytes 4 (BitVec.ofNat 32 block.terminator.falseEdge.arguments.length) ++
    block.instructions.flatMap writeValue ++
    block.terminator.trueEdge.arguments.flatMap writeValue ++
    block.terminator.falseEdge.arguments.flatMap writeValue

end writers

/-! ## Encoder -/

/-- The sum of sizes, with the source's overflow check at each step. -/
def addSizes (e : Status) : List Nat → Nat → Except (Failure Status) Nat
  | [], total => .ok total
  | size :: rest, total => do
      match ← checkedAdd total size with
      | none => .error (.rejected e)
      | some total => addSizes e rest total

/-- The counts that both kinds of package share. -/
def collectCommonManifest (parameterCount nodeCount : Nat) (t : SideTables) :
    Except (Failure Status) Manifest := do
  let e := exhaustedPackage "portable IR table exceeds the wire index range"
  let parameters ← sizeToU32 parameterCount e
  let nodes ← sizeToU32 nodeCount e
  let callArguments ← sizeToU32 t.callArguments.length e
  let fastCalls ← sizeToU32 t.fastCalls.length e
  let memoryRegions ← sizeToU32 t.memoryRegionCount e
  let memoryAccesses ← sizeToU32 t.memoryAccesses.length e
  let atomicAccesses ← sizeToU32 t.atomicAccesses.length e
  let frameSlots ← sizeToU32 t.frameSlots.length e
  let trustedObjects ← sizeToU32 t.trustedObjects.length e
  let patchCells ← sizeToU32 t.patchCells.length e
  let vectorConstants ← sizeToU32 t.vectorConstants.length e
  let vectorShuffles ← sizeToU32 t.vectorShuffles.length e
  let vectorSelectArguments ← sizeToU32 t.vectorSelectArguments.length e
  let signatureValues ← addSizes (exhaustedPackage "portable IR fast-call signature overflows")
    (t.fastCalls.map (·.parameterTypes.length)) 0
  let fastCallSignatureValues ← sizeToU32 signatureValues
    (exhaustedPackage "portable IR fast-call signatures are too large")
  pure
    { schema := kSchemaRevision, parameters, nodes, callArguments, fastCalls,
      fastCallSignatureValues, memoryRegions, memoryAccesses, atomicAccesses, frameSlots,
      trustedObjects, patchCells, vectorConstants, vectorShuffles, vectorSelectArguments }

/-- A package and what is reported about it. -/
structure PortableIrEncodeResult where
  metadata : PortableIrMetadata
  bytes : List Byte
  deriving DecidableEq, Repr

/-- The report about a package, read off its manifest. -/
def packageMetadata (kind : PortableIrKind) (payloadSize : Nat) (digest : List Byte)
    (m : Manifest) : PortableIrMetadata where
  kind
  formatVersion := kPortableIrFormatVersion
  packageBytes := kHeaderSize + payloadSize
  payloadBytes := payloadSize
  parameterCount := m.parameters.toNat
  nodeCount := m.nodes.toNat
  blockCount := m.blocks.toNat
  callArgumentCount := m.callArguments.toNat
  edgeArgumentCount := m.edgeArguments.toNat
  payloadSha256 := digest

/-- The header of a package with the given payload. -/
def packageHeader (kind : PortableIrKind) (payload : List Byte) : List Byte :=
  kMagic ++ leBytes 2 kPortableIrFormatVersion ++ leBytes 2 kPortableIrFormatVersion ++
    [kind.code] ++ [0] ++ leBytes 2 (BitVec.ofNat 16 kHeaderSize) ++
    leBytes 8 (BitVec.ofNat 64 (kHeaderSize + payload.length)) ++
    leBytes 8 (BitVec.ofNat 64 payload.length) ++ packageSha256 payload

/-- Puts header and payload together under the limits. -/
def finishEncoding (kind : PortableIrKind) (payload : List Byte) (m : Manifest)
    (limits : PortableIrLimits) : Except (Failure Status) PortableIrEncodeResult := do
  rejectUnless (payload.length ≤ kMaximumSize - kHeaderSize)
    (exhaustedPackage "portable IR package size overflows")
  rejectUnless (kHeaderSize + payload.length ≤ limits.maximumPackageBytes)
    (exhaustedPackage "portable IR package byte limit exceeded")
  pure
    { metadata := packageMetadata kind payload.length (packageSha256 payload) m
      bytes := packageHeader kind payload ++ payload }

/-- A status as a failure of the monitored computation. -/
def rejecting {α : Type} : Except Status α → Except (Failure Status) α
  | .ok a => .ok a
  | .error e => .error (.rejected e)

/-- Some node calls a runtime helper, which a package cannot name. -/
def hasRuntimeCall {Op : Type} [DecidableEq Op] (runtimeCall : Op) (nodes : List (NodeOf Op)) :
    Bool :=
  nodes.any (·.opcode == runtimeCall)

/-- `encode_portable_ir` for straight-line functions. -/
def encodePortableFunction (f : Function) (limits : PortableIrLimits) :
    Except (Failure Status) PortableIrEncodeResult := do
  rejecting f.verify
  rejectUnless (hasRuntimeCall (.op .call) f.nodes = false)
    ⟨.invalidIr, "runtime helper addresses cannot enter portable IR", 0⟩
  let common ← collectCommonManifest f.parameterCount f.nodes.length f.toSideTables
  let m := { common with returnValue := f.returnValue.id, entryBlock := kInvalidIndex }
  validateManifestLimits m .function limits
  let payloadSize ← expectedPayloadSize m
  let payload := writeCommon Opcode.order f.parameterTypes f.nodes f.toSideTables m
  rejectUnless (payload.length = payloadSize)
    (invalidPackage "portable IR encoder size mismatch")
  finishEncoding .function payload m limits

/-- The instruction references and edge arguments of all blocks. -/
def countReferences :
    List BasicBlock → Nat × Nat → Except (Failure Status) (Nat × Nat)
  | [], counts => .ok counts
  | block :: rest, (instructionReferences, edgeArguments) => do
      let e := exhaustedPackage "portable IR CFG counts overflow"
      let instructionReferences ← addSizes e [block.instructions.length] instructionReferences
      let edgeArguments ← addSizes e [block.terminator.trueEdge.arguments.length,
        block.terminator.falseEdge.arguments.length] edgeArguments
      countReferences rest (instructionReferences, edgeArguments)

/-- `encode_portable_ir` for control-flow graphs. -/
def encodePortableControlFlow (f : ControlFlowFunction) (limits : PortableIrLimits) :
    Except (Failure Status) PortableIrEncodeResult := do
  rejecting f.verify
  rejectUnless (hasRuntimeCall (.op .call) f.nodes = false)
    ⟨.invalidIr, "runtime helper addresses cannot enter portable IR", 0⟩
  let common ← collectCommonManifest f.parameterCount f.nodes.length f.toSideTables
  let blocks ← sizeToU32 f.blocks.length
    (exhaustedPackage "portable IR CFG has too many blocks")
  let (instructionReferences, edgeArguments) ← countReferences f.blocks (0, 0)
  let e := exhaustedPackage "portable IR CFG tables are too large"
  let blockInstructionReferences ← sizeToU32 instructionReferences e
  let edgeArguments ← sizeToU32 edgeArguments e
  let m := { common with
    returnValue := kInvalidIndex, entryBlock := f.entryBlock.id, blocks,
    blockInstructionReferences, edgeArguments }
  validateManifestLimits m .controlFlow limits
  let payloadSize ← expectedPayloadSize m
  let payload := writeCommon ControlOpcode.order f.parameterTypes f.nodes f.toSideTables m ++
    f.blocks.flatMap writeBlock
  rejectUnless (payload.length = payloadSize)
    (invalidPackage "portable IR CFG encoder size mismatch")
  finishEncoding .controlFlow payload m limits

/-! ## Envelope -/

/-- The fields of the header as they are read. -/
structure PackageHeader where
  magic : List Byte
  formatVersion : BitVec 16
  minimumReaderVersion : BitVec 16
  kind : Byte
  flags : Byte
  headerSize : BitVec 16
  totalSize : BitVec 64
  payloadSize : BitVec 64
  digest : List Byte

/-- Reads the header. -/
def readHeader : Reading Status PackageHeader := do
  let e := invalidPackage "portable IR header is truncated"
  let magic ← raw 8 e
  let formatVersion ← u16 e
  let minimumReaderVersion ← u16 e
  let kind ← u8 e
  let flags ← u8 e
  let headerSize ← u16 e
  let totalSize ← u64 e
  let payloadSize ← u64 e
  let digest ← raw kPortableIrDigestSize e
  pure ⟨magic, formatVersion, minimumReaderVersion, kind, flags, headerSize, totalSize,
    payloadSize, digest⟩

/-- Reads the words of the manifest. -/
def readManifest : Reading Status Manifest := do
  let words ← table (fun _ => u32 (invalidPackage "portable IR manifest is truncated")) 0
    kManifestWords
  pure (.ofWords words)

/-- Run a reader over a window of the package; the tables are limited by the payload's length. -/
def readWindow {α : Type} (bytes : List Byte) (base size : Nat) (r : Reading Status α) :
    Except (Failure Status) (α × Nat) :=
  r ⟨bytes, base, size, bytes.length - kHeaderSize⟩ 0

/-- What is known of a package before its body is read. -/
structure Envelope where
  metadata : PortableIrMetadata
  manifest : Manifest
  bodySize : Nat

/-- The kind with a byte. -/
def decodeKind (encoded : Byte) : Option PortableIrKind :=
  [PortableIrKind.function, .controlFlow].find? (·.code == encoded)

/-- Check the header, the digest and the manifest of a package. -/
def parseEnvelope (bytes : List Byte) (limits : PortableIrLimits) :
    Except (Failure Status) Envelope := do
  rejectUnless (bytes.length ≤ limits.maximumPackageBytes)
    (exhaustedPackage "portable IR package byte limit exceeded")
  rejectUnless (kHeaderSize + kManifestSize ≤ bytes.length)
    (invalidPackage "portable IR package is truncated")
  let (header, _) ← readWindow bytes 0 kHeaderSize readHeader
  rejectUnless (header.magic = kMagic) (invalidPackage "portable IR magic is invalid")
  rejectUnless (header.formatVersion = kPortableIrFormatVersion ∧
      header.minimumReaderVersion ≤ kPortableIrFormatVersion ∧ header.minimumReaderVersion ≠ 0)
    ⟨.unavailable, "portable IR format version is unsupported", 0⟩
  let e := invalidPackage "portable IR header fields are invalid"
  rejectUnless ((decodeKind header.kind).isSome ∧ header.flags = 0 ∧
    header.headerSize.toNat = kHeaderSize) e
  let payloadSize ← subtractSize bytes.length kHeaderSize
  rejectUnless (header.totalSize.toNat = bytes.length ∧ header.payloadSize.toNat = payloadSize)
    (invalidPackage "portable IR encoded length is inconsistent")
  let payload ← fetch ⟨bytes, 0, bytes.length, 0⟩ kHeaderSize payloadSize
  rejectUnless (packageSha256 payload = header.digest)
    (invalidPackage "portable IR payload digest does not match")
  let (m, _) ← readWindow bytes kHeaderSize kManifestSize readManifest
  rejectUnless (m.schema = kSchemaRevision)
    ⟨.unavailable, "portable IR payload schema is unsupported", 0⟩
  rejectUnless (m.reserved0 = 0) (invalidPackage "portable IR manifest reserved word is nonzero" 20)
  rejectUnless (m.reserved1 = 0) (invalidPackage "portable IR manifest reserved word is nonzero" 21)
  rejectUnless (m.reserved2 = 0) (invalidPackage "portable IR manifest reserved word is nonzero" 22)
  rejectUnless (m.reserved3 = 0) (invalidPackage "portable IR manifest reserved word is nonzero" 23)
  let kind := (decodeKind header.kind).getD .function
  validateManifestLimits m kind limits
  let expectedSize ← expectedPayloadSize m
  rejectUnless (expectedSize = payloadSize)
    (invalidPackage "portable IR payload length is not canonical")
  let bodySize ← subtractSize payloadSize kManifestSize
  pure ⟨packageMetadata kind payloadSize header.digest m, m, bodySize⟩

/-- `inspect_portable_ir`: the metadata of a package whose envelope is valid. -/
def inspectPortableIr (bytes : List Byte) (limits : PortableIrLimits) :
    Except (Failure Status) PortableIrMetadata := do
  let envelope ← parseEnvelope bytes limits
  pure envelope.metadata

/-! ## Readers of the tables -/

/-- The value of an option, or a rejection. -/
def orReject {α : Type} (o : Option α) (e : Status) : Reading Status α :=
  match o with
  | some a => pure a
  | none => reject e

/-- A monitored computation inside a reader. -/
def monitored {α : Type} (x : Except (Failure Status) α) : Reading Status α := fun _ offset =>
  match x with
  | .ok a => .ok (a, offset)
  | .error e => .error e

section readers

variable {Op : Type} [DecidableEq Op]

/-- Reads a node. -/
def readNode (order : List Op) (runtimeCall : Op) (index : Nat) : Reading Status (NodeOf Op) := do
  let e := invalidPackage "portable IR node table is truncated" index
  let opcode ← u8 e
  let encodedType ← u8 e
  let reserved ← u16 e
  let lhs ← u32 e
  let rhs ← u32 e
  let auxiliary ← u32 e
  let argumentBegin ← u32 e
  let argumentCount ← u32 e
  let memoryAccess ← u32 e
  let frameSlot ← u32 e
  let trustedObject ← u32 e
  let atomicAccess ← u32 e
  let immediate ← u64 e
  let e := invalidPackage "portable IR node encoding is invalid" index
  expect (reserved = 0) e
  let opcode ← orReject (enumOfByte order opcode) e
  expect (opcode ≠ runtimeCall) e
  let type ← orReject (enumOfByte ValueType.order encodedType) e
  pure
    { opcode, lhs := ⟨lhs⟩, rhs := ⟨rhs⟩, immediate, type, argumentBegin, argumentCount,
      memoryAccess, frameSlot, trustedObject, auxiliary := ⟨auxiliary⟩, atomicAccess }

/-- Reads the nodes. -/
def readNodes (order : List Op) (runtimeCall : Op) (count : Nat) :
    Reading Status (List (NodeOf Op)) := do
  reserve count
  table (readNode order runtimeCall) 0 count

/-- Reads a type, which must be a scalar's. -/
def readScalarType (e : Status) : Reading Status ValueType := do
  let encoded ← u8 e
  let type ← orReject (enumOfByte ValueType.order encoded) e
  expect (isScalarValueType type = true) e
  pure type

/-- Reads the parameter types. -/
def readParameterTypes (m : Manifest) : Reading Status (List ValueType) := do
  reserve m.parameters.toNat
  table (fun index => readScalarType (invalidPackage "portable IR parameter type is invalid" index))
    0 m.parameters.toNat

/-- Reads a value handle. -/
def readValue (e : Status) : Reading Status Value := do
  let id ← u32 e
  pure ⟨id⟩

/-- Reads a list of value handles. -/
def readValues (e : Status) (count : Nat) : Reading Status (List Value) := do
  reserve count
  table (fun _ => readValue e) 0 count

/-- A fast-call header: the return type and the number of parameters. The running number of
parameters may not exceed the manifest's. -/
def readFastCallHeader (m : Manifest) (index : Nat)
    (state : List (ValueType × BitVec 32) × Nat) :
    Reading Status (List (ValueType × BitVec 32) × Nat) := do
  let e := invalidPackage "portable IR fast-call descriptor is invalid" index
  let encodedReturn ← u8 e
  let reserved8 ← u8 e
  let reserved16 ← u16 e
  let parameterCount ← u32 e
  expect (reserved8 = 0 ∧ reserved16 = 0) e
  let returnType ← orReject (enumOfByte ValueType.order encodedReturn) e
  expect (isScalarValueType returnType = true) e
  let sum ← monitored (checkedAdd state.2 parameterCount.toNat)
  let signatureCount ← orReject sum e
  expect (signatureCount ≤ m.fastCallSignatureValues.toNat) e
  pure (state.1 ++ [(returnType, parameterCount)], signatureCount)

/-- Reads the parameter types of the fast calls, one call after another. -/
def readFastCallTypes (headers : List (ValueType × BitVec 32)) :
    Reading Status (List FastCallDescriptor) :=
  match headers with
  | [] => pure []
  | (returnType, parameterCount) :: rest => do
      reserve parameterCount.toNat
      let parameterTypes ← table
        (fun _ => readScalarType (invalidPackage "portable IR fast-call parameter is invalid")) 0
        parameterCount.toNat
      let descriptors ← readFastCallTypes rest
      pure (⟨parameterTypes, returnType⟩ :: descriptors)

/-- Reads the fast calls without their parameter types. -/
def readFastCallHeaders (m : Manifest) : Reading Status (List (ValueType × BitVec 32)) := do
  reserve m.fastCalls.toNat
  let state ← loop (readFastCallHeader m) 0 m.fastCalls.toNat ([], 0)
  expect (state.2 = m.fastCallSignatureValues.toNat)
    (invalidPackage "portable IR fast-call signature count differs")
  pure state.1

/-- Reads the fast calls. -/
def readFastCalls (m : Manifest) : Reading Status (List FastCallDescriptor) := do
  let headers ← readFastCallHeaders m
  reserve headers.length
  readFastCallTypes headers

/-- Reads a memory access. -/
def readMemory : Reading Status MemoryAccessDescriptor := do
  let e := invalidPackage "portable IR memory descriptor is truncated"
  let region ← u32 e
  let aliasClass ← u32 e
  let width ← u8 e
  let alignment ← u8 e
  let byteOrder ← u8 e
  let flags ← u8 e
  let e := invalidPackage "portable IR memory descriptor is invalid"
  let width ← orReject (decodeMemoryWidth width) e
  let byteOrder ← orReject (enumOfByte MemoryByteOrder.order byteOrder) e
  expect (flags &&& ~~~3 = 0) e
  pure
    { region, aliasClass, width, alignment, byteOrder
      signExtend := flags &&& 1 != 0, isVolatile := flags &&& 2 != 0 }

/-- Reads an atomic access. -/
def readAtomic (index : Nat) : Reading Status AtomicAccessDescriptor := do
  -- a rejected memory part is reported as an invalid atomic descriptor
  let e := invalidPackage "portable IR atomic descriptor is invalid" index
  let memory ← rejectAs e readMemory
  let order ← u8 e
  let failureOrder ← u8 e
  let strength ← u8 e
  let reserved ← u8 e
  expect (reserved = 0) e
  let order ← orReject (enumOfByte AtomicMemoryOrder.enumOrder order) e
  let failureOrder ← orReject (enumOfByte AtomicMemoryOrder.enumOrder failureOrder) e
  let strength ← orReject (enumOfByte AtomicCompareExchangeStrength.enumOrder strength) e
  pure { memory, order, failureOrder, strength }

/-- Reads a frame slot. -/
def readFrameSlot (index : Nat) : Reading Status FrameSlotDescriptor := do
  let e := invalidPackage "portable IR frame slot is invalid" index
  let encodedType ← u8 e
  let flags ← u8 e
  let reserved ← u16 e
  let type ← orReject (enumOfByte ValueType.order encodedType) e
  expect (isScalarValueType type = true ∧ flags &&& ~~~1 = 0 ∧ reserved = 0) e
  pure { type, sensitive := flags &&& 1 != 0 }

/-- Reads a trusted object. -/
def readTrustedObject (index : Nat) : Reading Status TrustedObjectDescriptor := do
  let e := invalidPackage "portable IR trusted object is invalid" index
  let identity ← u64 e
  let byteSize ← u64 e
  expect (byteSize.toNat ≤ kMaximumSize) e
  pure { layoutIdentity := identity, byteSize := byteSize.toNat }

/-- Reads a patch cell. -/
def readPatchCell (index : Nat) : Reading Status PatchCellDescriptor := do
  let e := invalidPackage "portable IR patch cell is invalid" index
  let initialValue ← u64 e
  let kind ← u8 e
  let reserved ← raw 7 e
  expect (∀ value ∈ reserved, value = 0) e
  let kind ← orReject (enumOfByte PatchCellKind.order kind) e
  pure { initialValue, kind }

/-- Reads a vector constant. -/
def readVectorConstant : Reading Status Vector128 := do
  let bytes ← raw 16 (invalidPackage "portable IR vector constants are truncated")
  pure (ofLeBytes 128 bytes)

/-- Sixteen bytes as the lane array of a shuffle. -/
def shuffleLanes (bytes : List Byte) : Vector Byte 16 := Vector.ofFn fun i => bytes.getD i 0

/-- Reads a shuffle. -/
def readVectorShuffle (index : Nat) : Reading Status VectorShuffle := do
  let e := invalidPackage "portable IR vector shuffle is invalid" index
  let lanes ← raw 16 e
  let laneCount ← u8 e
  let reserved ← raw 7 e
  expect (laneCount.toNat ≤ 16 ∧ ∀ value ∈ reserved, value = 0) e
  pure { lanes := shuffleLanes lanes, laneCount }

/-- A table whose room is made first. -/
def readTable {α : Type} (count : Nat) (item : Nat → Reading Status α) :
    Reading Status (List α) := do
  reserve count
  table item 0 count

/-- Reads the side tables behind the nodes. -/
def readAfterNodes (m : Manifest) : Reading Status SideTables := do
  let callArguments ← readValues (invalidPackage "portable IR call arguments are truncated")
    m.callArguments.toNat
  let fastCalls ← readFastCalls m
  let memoryAccesses ← readTable m.memoryAccesses.toNat fun _ => readMemory
  let atomicAccesses ← readTable m.atomicAccesses.toNat readAtomic
  let frameSlots ← readTable m.frameSlots.toNat readFrameSlot
  let trustedObjects ← readTable m.trustedObjects.toNat readTrustedObject
  let patchCells ← readTable m.patchCells.toNat readPatchCell
  let vectorConstants ← readTable m.vectorConstants.toNat fun _ => readVectorConstant
  let vectorShuffles ← readTable m.vectorShuffles.toNat readVectorShuffle
  let vectorSelectArguments ← readValues (invalidPackage "portable IR vector selects are truncated")
    m.vectorSelectArguments.toNat
  pure
    { callArguments, fastCalls, memoryRegionCount := m.memoryRegions.toNat, memoryAccesses,
      atomicAccesses, frameSlots, trustedObjects, patchCells, vectorConstants, vectorShuffles,
      vectorSelectArguments }

end readers

/-- A body that ends with its last table. -/
def requireConsumed {α : Type} (r : Reading Status α) : Reading Status α :=
  whole r (invalidPackage "portable IR package has trailing bytes")

/-! ## Decoder of straight-line functions -/

/-- A decoded function and the report about its package. -/
structure PortableFunctionDecodeResult where
  metadata : PortableIrMetadata
  function : Function
  deriving DecidableEq, Repr

/-- The body of a straight-line package. -/
def readFunction (m : Manifest) : Reading Status Function := do
  let parameterTypes ← readParameterTypes m
  let nodes ← readNodes Opcode.order (.op .call) m.nodes.toNat
  let tables ← readAfterNodes m
  pure { tables with parameterTypes, nodes, returnValue := ⟨m.returnValue⟩ }

/-- Where the body of a package starts. -/
def kBodyOffset : Nat := kHeaderSize + kManifestSize

/-- Decodes a function, which must verify. -/
def decodePortableFunction (bytes : List Byte) (limits : PortableIrLimits) :
    Except (Failure Status) PortableFunctionDecodeResult := do
  let envelope ← parseEnvelope bytes limits
  rejectUnless (envelope.metadata.kind = .function)
    (invalidPackage "portable IR package is not straight-line")
  let (f, _) ← readWindow bytes kBodyOffset envelope.bodySize
    (requireConsumed (readFunction envelope.manifest))
  rejecting f.verify
  pure ⟨envelope.metadata, f⟩

/-! ## Decoder of control-flow graphs -/

/-- A decoded graph and the report about its package. -/
structure PortableControlFlowDecodeResult where
  metadata : PortableIrMetadata
  function : ControlFlowFunction
  deriving DecidableEq, Repr

/-- The fixed part of a block record. -/
structure BlockRecord where
  parameterCount : BitVec 32
  instructionCount : BitVec 32
  terminator : Byte
  value : BitVec 32
  trueTarget : BitVec 32
  trueArgumentCount : BitVec 32
  falseTarget : BitVec 32
  falseArgumentCount : BitVec 32

/-- The fields that a block's terminator does not use have their neutral values. -/
def BlockRecord.canonical (r : BlockRecord) : Prop :=
  (r.terminator = 1 → r.trueTarget = kInvalidIndex ∧ r.falseTarget = kInvalidIndex ∧
    r.trueArgumentCount = 0 ∧ r.falseArgumentCount = 0) ∧
  (r.terminator = 2 → r.value = kInvalidIndex ∧ r.trueTarget ≠ kInvalidIndex ∧
    r.falseTarget = kInvalidIndex ∧ r.falseArgumentCount = 0) ∧
  (r.terminator = 3 → r.value ≠ kInvalidIndex ∧ r.trueTarget ≠ kInvalidIndex ∧
    r.falseTarget ≠ kInvalidIndex)

/-- Whether a block's record is canonical can be computed. -/
instance (r : BlockRecord) : Decidable r.canonical := inferInstanceAs (Decidable (_ ∧ _ ∧ _))

/-- Reads the fixed part of a block. -/
def readBlockRecord (e : Status) : Reading Status BlockRecord := do
  let parameterCount ← u32 e
  let instructionCount ← u32 e
  let terminator ← u8 e
  let reserved8 ← u8 e
  let reserved16 ← u16 e
  let value ← u32 e
  let trueTarget ← u32 e
  let trueArgumentCount ← u32 e
  let falseTarget ← u32 e
  let falseArgumentCount ← u32 e
  expect (reserved8 = 0 ∧ reserved16 = 0 ∧ terminator ≤ 3 ∧ terminator ≠ 0 ∧
    parameterCount ≤ instructionCount) e
  pure ⟨parameterCount, instructionCount, terminator, value, trueTarget, trueArgumentCount,
    falseTarget, falseArgumentCount⟩

/-- The first instructions of a block as its parameters. -/
def leadingInstructions (instructions : List Value) (count : Nat) : Reading Status (List Value) :=
  if count ≤ instructions.length then pure (instructions.take count)
  else fault .readOutside

/-- The terminator that a block's record and edges describe. -/
def decodedTerminator (r : BlockRecord) (trueArguments falseArguments : List Value) :
    ControlTerminator :=
  if r.terminator = 1 then .ret ⟨r.value⟩
  else if r.terminator = 2 then .jump ⟨⟨r.trueTarget⟩, trueArguments⟩
  else .branch ⟨r.value⟩ ⟨⟨r.trueTarget⟩, trueArguments⟩ ⟨⟨r.falseTarget⟩, falseArguments⟩

/-- The lists behind a block record. -/
def readBlockLists (r : BlockRecord) : Reading Status BasicBlock := do
  let instructions ← readValues (invalidPackage "portable IR CFG instructions are truncated")
    r.instructionCount.toNat
  let parameters ← leadingInstructions instructions r.parameterCount.toNat
  let e := invalidPackage "portable IR CFG edge is truncated"
  let trueArguments ← readValues e r.trueArgumentCount.toNat
  let falseArguments ← readValues e r.falseArgumentCount.toNat
  pure ⟨parameters, instructions, decodedTerminator r trueArguments falseArguments⟩

/-- The state of the block loop: the blocks and the two running counts. -/
structure BlockLoop where
  blocks : List BasicBlock := []
  instructionReferences : Nat := 0
  edgeArguments : Nat := 0

/-- One block. -/
def readBlock (m : Manifest) (blockIndex : Nat) (s : BlockLoop) : Reading Status BlockLoop := do
  let e := invalidPackage "portable IR CFG block is invalid" blockIndex
  let r ← readBlockRecord e
  let sum ← monitored (checkedAdd s.instructionReferences r.instructionCount.toNat)
  let instructionReferences ← orReject sum e
  expect (instructionReferences ≤ m.blockInstructionReferences.toNat) e
  let sum ← monitored (checkedAdd s.edgeArguments r.trueArgumentCount.toNat)
  let trueSum ← orReject sum e
  let sum ← monitored (checkedAdd trueSum r.falseArgumentCount.toNat)
  let edgeArguments ← orReject sum e
  expect (edgeArguments ≤ m.edgeArguments.toNat) e
  expect r.canonical (invalidPackage "portable IR CFG terminator is noncanonical" blockIndex)
  let block ← readBlockLists r
  pure ⟨s.blocks ++ [block], instructionReferences, edgeArguments⟩

/-- Reads the blocks. -/
def readBlocks (m : Manifest) : Reading Status (List BasicBlock) := do
  reserve m.blocks.toNat
  let s ← loop (readBlock m) 0 m.blocks.toNat {}
  expect (s.instructionReferences = m.blockInstructionReferences.toNat ∧
      s.edgeArguments = m.edgeArguments.toNat)
    (invalidPackage "portable IR CFG aggregate counts differ")
  pure s.blocks

/-- The body of a control-flow package. -/
def readControlFlow (m : Manifest) : Reading Status ControlFlowFunction := do
  let parameterTypes ← readParameterTypes m
  let nodes ← readNodes ControlOpcode.order (.op .call) m.nodes.toNat
  let tables ← readAfterNodes m
  let blocks ← readBlocks m
  pure { tables with parameterTypes, entryBlock := ⟨m.entryBlock⟩, nodes, blocks }

/-- Decodes a graph, which must verify. -/
def decodePortableControlFlow (bytes : List Byte) (limits : PortableIrLimits) :
    Except (Failure Status) PortableControlFlowDecodeResult := do
  let envelope ← parseEnvelope bytes limits
  rejectUnless (envelope.metadata.kind = .controlFlow)
    (invalidPackage "portable IR package is not a CFG")
  let (f, _) ← readWindow bytes kBodyOffset envelope.bodySize
    (requireConsumed (readControlFlow envelope.manifest))
  rejecting f.verify
  pure ⟨envelope.metadata, f⟩

end UniJit.Ir
