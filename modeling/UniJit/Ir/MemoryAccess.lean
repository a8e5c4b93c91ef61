import UniJit.Lib.Checked
import UniJit.Lib.LittleEndian
import UniJit.Runtime.ExecutionContext

/-!
# Bounded memory, atomics and trusted objects

How an instruction reaches the memory of its machine. Every access goes through a check that
yields an address: `resolveBoundedMemory` for a region of the context, `resolveTrustedObject` for
one of its objects. A failed check of a region records a runtime exit; a failed check of an
object only reports its status.
-/

namespace UniJit.Ir

open UniJit.Lib UniJit.Runtime

/-! ## Bounded memory -/

/-- The address and width of a bounded access, or the message of the check that fails. -/
def boundedAddress (access : MemoryAccessDescriptor) (byteOffset : Word) (store : Bool)
    (context : Option ExecutionContext) : Except String (Nat × Nat) :=
  match context.bind fun context => context.memoryRegions[access.region.toNat]? with
  | none => .error "bounded memory region is not bound"
  | some region => do
      require (store → region.writable) "bounded memory region is read-only"
      let width := memoryWidthBytes access.width
      require (¬ (width = 0 ∨ region.size < width ∨ region.size - width < byteOffset.toNat))
        "bounded memory access is out of range"
      let address := region.data + byteOffset.toNat
      require (¬ (access.alignment = 0 ∨ address &&& (access.alignment.toNat - 1) ≠ 0))
        "bounded memory access is misaligned"
      pure (address, width)

/-- The address and width of an access, or an exit at its site. -/
def resolveBoundedMemory (access : MemoryAccessDescriptor) (byteOffset : Word) (site : Nat)
    (store : Bool) : Exec (Nat × Nat) := do
  match boundedAddress access byteOffset store (← get).context with
  | .ok resolved => pure resolved
  | .error message => stopAt .runtime .runtimeExit message site byteOffset

section resolveBoundedMemory

variable {access : MemoryAccessDescriptor} {offset : Word} {site : Nat} {store : Bool} {m : Machine}

/-- An admitted access goes on with its address and an unchanged machine. -/
lemma resolveBoundedMemory_ok {r : Nat × Nat}
    (h : boundedAddress access offset store m.context = .ok r) :
    resolveBoundedMemory access offset site store m = .ok r m := by
  rw [resolveBoundedMemory, get_bind, h]
  rfl

end resolveBoundedMemory

/-- The byte order of an access on this host. -/
def isLittleEndian (host : Host) : MemoryByteOrder → Bool
  | .littleEndian => true
  | .native => host.littleEndian
  | .bigEndian => false

/-- Bytes of memory as a list with the least significant byte first, and back. -/
def memoryOrder (little : Bool) (bytes : List Byte) : List Byte :=
  if little then bytes else bytes.reverse

/-- A value of `width` bytes, sign-extended to a word if the access asks for it. -/
def extendLoaded (access : MemoryAccessDescriptor) (width : Nat) (bits : Word) : Word :=
  if access.signExtend ∧ width < 8 ∧ bits &&& (1#64 <<< (width * 8 - 1)) ≠ 0 then
    bits ||| ~~~((1#64 <<< (width * 8)) - 1#64)
  else bits

/-- Loads and extends a word. -/
def loadBoundedWord (host : Host) (access : MemoryAccessDescriptor) (byteOffset : Word)
    (site : Nat) : Exec Word := do
  let (address, width) ← resolveBoundedMemory access byteOffset site false
  let bytes := (← get).readBytes address width
  let bits := ofLeBytes 64 (memoryOrder (isLittleEndian host access.byteOrder) bytes)
  pure (extendLoaded access width bits)

/-- Stores the low bytes of a word. -/
def storeBoundedWord (host : Host) (access : MemoryAccessDescriptor) (byteOffset value : Word)
    (site : Nat) : Exec Word := do
  let (address, width) ← resolveBoundedMemory access byteOffset site true
  let bytes := memoryOrder (isLittleEndian host access.byteOrder) (leBytes width value)
  modify fun m => m.writeBytes address bytes
  pure value

/-- A 32-bit access converts between `float` in memory and `double` in registers. -/
def loadBoundedFloat (host : Host) (access : MemoryAccessDescriptor)
    (byteOffset : Word) (site : Nat) : Exec Word := do
  let loaded ← loadBoundedWord host access byteOffset site
  pure (if access.width = .k64 then loaded else host.float.widen (loaded.setWidth 32))

/-- Stores a Float64, narrowed first when the access is of four bytes. -/
def storeBoundedFloat (host : Host) (access : MemoryAccessDescriptor)
    (byteOffset value : Word) (site : Nat) : Exec Word := do
  let storedBits := if access.width = .k32 then (host.float.narrow value).setWidth 64 else value
  let _ ← storeBoundedWord host access byteOffset storedBits site
  pure value

/-- The bytes of a vector in memory: each lane in the byte order of the access. -/
def vectorMemoryBytes (little : Bool) (type : ValueType) (bytes : List Byte) : List Byte :=
  let laneBytes := vectorLaneBits type / 8
  (List.range (vectorLaneCount type)).flatMap fun lane =>
    memoryOrder little ((bytes.drop (lane * laneBytes)).take laneBytes)

/-- Loads a vector lane by lane. -/
def loadBoundedVector (host : Host) (access : MemoryAccessDescriptor) (type : ValueType)
    (byteOffset : Word) (site : Nat) : Exec Vector128 := do
  let (address, _) ← resolveBoundedMemory access byteOffset site false
  let bytes := (← get).readBytes address 16
  pure (ofLeBytes 128 (vectorMemoryBytes (isLittleEndian host access.byteOrder) type bytes))

/-- Stores a vector lane by lane. -/
def storeBoundedVector (host : Host) (access : MemoryAccessDescriptor) (type : ValueType)
    (byteOffset : Word) (value : Vector128) (site : Nat) : Exec Vector128 := do
  let (address, _) ← resolveBoundedMemory access byteOffset site true
  let bytes := vectorMemoryBytes (isLittleEndian host access.byteOrder) type (leBytes 16 value)
  modify fun m => m.writeBytes address bytes
  pure value

/-! ## Atomics -/

/-- Bytes copied into the start of a zeroed word. -/
def nativeWordOfBytes (host : Host) (bytes : List Byte) : Word :=
  ofLeBytes 64 (memoryOrder host.littleEndian (bytes ++ List.replicate (8 - bytes.length) 0))

/-- The first bytes of a word in memory. -/
def nativeBytesOfWord (host : Host) (count : Nat) (value : Word) : List Byte :=
  (memoryOrder host.littleEndian (leBytes 8 value)).take count

/-- The bits of a word that an access of this many bytes covers. -/
def widthMask (width : Nat) : Word :=
  if width = 8 then BitVec.allOnes 64 else (1#64 <<< (width * 8)) - 1#64

/-- What an atomic operation writes over the observed value, if it writes. -/
def atomicReplacement (o : AtomicOpcode) (mask observed operand desired : Word) : Option Word :=
  match o with
  | .load => none
  | .store => some operand
  | .exchange => some operand
  | .compareExchange => if observed = operand then some desired else none
  | .fetchAdd => some ((observed + operand) &&& mask)
  | .fetchAnd => some (observed &&& operand)
  | .fetchOr => some (observed ||| operand)
  | .fetchXor => some (observed ^^^ operand)

/-- The interpreter's atomic access. -/
def accessBoundedAtomic (host : Host) (access : AtomicAccessDescriptor) (o : AtomicOpcode)
    (byteOffset value desired : Word) (site : Nat) : Exec Word := do
  let (address, width) ← resolveBoundedMemory access.memory byteOffset site (o ≠ .load)
  let mask := widthMask width
  let observed := nativeWordOfBytes host ((← get).readBytes address width) &&& mask
  match atomicReplacement o mask observed (value &&& mask) (desired &&& mask) with
  | none => pure ()
  | some replacement =>
      modify fun m => m.writeBytes address (nativeBytesOfWord host width replacement)
  pure (if o = .store then value else observed)

/-! ## Trusted objects -/

/-- The refusal of a missing or unfit binding. -/
def invalidBinding (message : String) (index : Nat) : Status :=
  { code := .invalidArgument, message := message, location := index }

/-- The check of the object bound to slot `index` against its descriptor. -/
def validateTrustedObject (object : TrustedObject) (descriptor : TrustedObjectDescriptor)
    (writable : Bool) (index : Nat) : Except Status Unit := do
  require (object.layoutIdentity = descriptor.layoutIdentity)
    (invalidBinding "trusted object layout identity does not match" index)
  require (¬ (object.data = 0 ∨ object.size < descriptor.byteSize))
    (invalidBinding "trusted object is smaller than its layout" index)
  require (¬ (object.data &&& 7 ≠ 0 ∨ 2 ^ 64 - 1 - object.data < object.size))
    (invalidBinding "trusted object layout base is invalid" index)
  require (writable → object.writable)
    (invalidBinding "trusted object requires writable storage" index)

/-- The check of a context's objects before a run; `writable` tells which of them are stored to. -/
def validateTrustedObjectBindings (descriptors : List TrustedObjectDescriptor)
    (writable : List Bool) (context : Option ExecutionContext) : Except Status Unit := do
  require (writable.length = descriptors.length)
    (invalidBinding "trusted-object access metadata is inconsistent" 0)
  if descriptors = [] then pure ()
  else
    let objects := (context.map (·.trustedObjects)).getD []
    require (descriptors.length ≤ objects.length)
      (invalidBinding "required trusted objects are not bound" 0)
    ((descriptors.zip objects).zip writable).zipIdx.forM fun ((binding, writable), index) =>
      validateTrustedObject binding.2 binding.1 writable index

/-- The address of a field of the object bound to a slot. -/
def resolveTrustedObject (slot : BitVec 32) (byteOffset : Nat) (store : Bool)
    (context : Option ExecutionContext) : Except Status Nat :=
  match context.bind fun context => context.trustedObjects[slot.toNat]? with
  | none => .error (invalidBinding "trusted object is not bound" slot.toNat)
  | some object => do
      require (slot ≠ kInvalidIndex) (invalidBinding "trusted object is not bound" slot.toNat)
      require (store → object.writable) (invalidBinding "trusted object is read-only" slot.toNat)
      require (¬ (object.size < byteOffset ∨ object.size - byteOffset < 8))
        (invalidBinding "trusted object field is out of range" slot.toNat)
      let address := object.data + byteOffset
      require (address &&& 7 = 0)
        (invalidBinding "trusted object field is misaligned" slot.toNat)
      pure address

/-- Loads a word from a trusted object. -/
def loadTrustedObject (host : Host) (slot : BitVec 32) (byteOffset : Nat) : Exec Word := do
  match resolveTrustedObject slot byteOffset false (← get).context with
  | .ok address => pure (nativeWordOfBytes host ((← get).readBytes address 8))
  | .error status => throw status

/-- Stores a word to a trusted object. -/
def storeTrustedObject (host : Host) (slot : BitVec 32) (byteOffset : Nat) (value : Word) :
    Exec Word := do
  match resolveTrustedObject slot byteOffset true (← get).context with
  | .ok address =>
      modify fun m => m.writeBytes address (nativeBytesOfWord host 8 value)
      pure value
  | .error status => throw status

end UniJit.Ir
