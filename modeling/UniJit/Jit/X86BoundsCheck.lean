import UniJit.Jit.X86Assembler

/-!
# Checks of bounded memory on x86-64

The code that the x86-64 back end emits in front of a bounded or atomic access: it loads the
context, the table of regions and the descriptor of the region, and branches to the failure path
unless the access is allowed.

`disassemble_memoryCheck` says which instructions the emitted bytes are, and `decides_memoryCheck`
what they decide: the condition `Passes`, over the memory that the check reads. `Passes` keeps the
arithmetic of the encodings, where the number of the region is compared as a sign-extended byte.
-/

namespace UniJit.Jit.X86

open UniJit.Ir UniJit.Lib UniJit.Lib.X86 UniJit.Runtime

/-! ## The emitted check -/

/-- The byte offsets of the fields that a check reads, on a 64-bit target. -/
def memoryRegionsOffset : Nat := 568
/-- Where the context counts its regions. -/
def memoryRegionCountOffset : Nat := 576
/-- The bytes of a region's descriptor. -/
def memoryRegionBytes : Nat := 24
/-- Where a descriptor has the address. -/
def dataOffset : Nat := 0
/-- Where a descriptor has the size. -/
def sizeOffset : Nat := 8
/-- Where a descriptor says whether the region is writable. -/
def writableOffset : Nat := 16

/-- Where the allocation keeps a word: in a register, or on the stack. -/
inductive OperandLocation
  | register (r : Register)
  | stack (byteOffset : Nat)
  deriving DecidableEq, Repr

/-- The code that makes a word available, and the register that then holds it. -/
def loadOperand (location : OperandLocation) (scratch : Register) : List Byte × Register :=
  match location with
  | .register r => ([], r)
  | .stack byteOffset => (load scratch kRsp byteOffset, scratch)

/-- An access as its check sees it. -/
structure CheckedAccess where
  access : MemoryAccessDescriptor
  store : Bool
  atomic : Bool
  deriving DecidableEq, Repr

/-- The check of the alignment; an atomic access has it always, and keeps the address in the
second scratch register too. -/
def lowerAlignmentCheck (a : CheckedAccess) : List Byte :=
  let mask : Byte := a.access.alignment - 1
  if a.atomic then
    moveRegister kScratch1 kScratch0 ++ bitwiseAndImmediate kScratch1 mask ++
      branchNonzero kScratch1 ++ moveRegister kScratch1 kScratch0
  else if 1 < a.access.alignment.toNat then
    moveRegister kScratch1 kScratch0 ++ bitwiseAndImmediate kScratch1 mask ++
      branchNonzero kScratch1
  else []

/-- The check of a bounded or atomic access, up to the access itself. Every branch in it leads to
the failure path. -/
def lowerMemoryCheck (a : CheckedAccess) (contextSlot : Nat) (offset : OperandLocation) :
    List Byte :=
  let width := memoryWidthBytes a.access.width
  let regionOffset := a.access.region.toNat * memoryRegionBytes
  let (loadOffset, offsetSource) := loadOperand offset kScratch1
  load kScratch0 kRsp (contextSlot * 8) ++
  branchZero kScratch0 ++
  load kScratch1 kScratch0 memoryRegionsOffset ++
  branchZero kScratch1 ++
  load kArgumentBaseRegister kScratch0 memoryRegionCountOffset ++
  branchUnsignedLess kArgumentBaseRegister (BitVec.ofNat 8 (a.access.region.toNat + 1)) ++
  load kScratch0 kScratch1 (regionOffset + dataOffset) ++
  branchZero kScratch0 ++
  (if a.store then
    loadUnsignedByte kArgumentBaseRegister kScratch1 (regionOffset + writableOffset) ++
      branchZero kArgumentBaseRegister
  else []) ++
  load kArgumentBaseRegister kScratch1 (regionOffset + sizeOffset) ++
  branchUnsignedLess kArgumentBaseRegister (BitVec.ofNat 8 width) ++
  loadOffset ++
  (if offsetSource ≠ kScratch1 then moveRegister kScratch1 offsetSource else []) ++
  subtractImmediate kArgumentBaseRegister (BitVec.ofNat 8 width) ++
  branchUnsignedGreater kScratch1 kArgumentBaseRegister ++
  addRegister kScratch0 kScratch1 ++
  lowerAlignmentCheck a

/-! ## The instructions of the check -/

/-- The test of the alignment. -/
def alignmentInstructions (a : CheckedAccess) : List Lib.X86.Instruction :=
  let mask : Byte := a.access.alignment - 1
  if a.atomic then
    [.move kScratch1 kScratch0, .andImmediate kScratch1 mask, .test kScratch1 kScratch1,
      .branch .notEqual 0, .move kScratch1 kScratch0]
  else if 1 < a.access.alignment.toNat then
    [.move kScratch1 kScratch0, .andImmediate kScratch1 mask, .test kScratch1 kScratch1,
      .branch .notEqual 0]
  else []

/-- The load of the offset. -/
def offsetInstructions : OperandLocation → List Lib.X86.Instruction
  | .register r => if r ≠ kScratch1 then [.move kScratch1 r] else []
  | .stack byteOffset => [.load kScratch1 kRsp (BitVec.ofNat 32 byteOffset)]

/-- A store reads the region's permission. -/
def writableInstructions (a : CheckedAccess) : List Lib.X86.Instruction :=
  if a.store then
    [.loadByte kArgumentBaseRegister kScratch1
      (BitVec.ofNat 32 (a.access.region.toNat * memoryRegionBytes + writableOffset)),
     .test kArgumentBaseRegister kArgumentBaseRegister, .branch .equal 0]
  else []

/-- The size, the offset and the alignment. -/
def boundsInstructions (a : CheckedAccess) (offset : OperandLocation) : List Lib.X86.Instruction :=
  let width : Byte := BitVec.ofNat 8 (memoryWidthBytes a.access.width)
  [.load kArgumentBaseRegister kScratch1
    (BitVec.ofNat 32 (a.access.region.toNat * memoryRegionBytes + sizeOffset)),
   .compareImmediate kArgumentBaseRegister width, .branch .below 0] ++
  (offsetInstructions offset ++
  ([.subtractImmediate kArgumentBaseRegister width,
    .compare kScratch1 kArgumentBaseRegister, .branch .above 0,
    .add kScratch0 kScratch1] ++ alignmentInstructions a))

/-- The whole check. -/
def checkInstructions (a : CheckedAccess) (contextSlot : Nat) (offset : OperandLocation) :
    List Lib.X86.Instruction :=
  [.load kScratch0 kRsp (BitVec.ofNat 32 (contextSlot * 8)),
   .test kScratch0 kScratch0, .branch .equal 0,
   .load kScratch1 kScratch0 (BitVec.ofNat 32 memoryRegionsOffset),
   .test kScratch1 kScratch1, .branch .equal 0,
   .load kArgumentBaseRegister kScratch0 (BitVec.ofNat 32 memoryRegionCountOffset),
   .compareImmediate kArgumentBaseRegister (BitVec.ofNat 8 (a.access.region.toNat + 1)),
   .branch .below 0,
   .load kScratch0 kScratch1
    (BitVec.ofNat 32 (a.access.region.toNat * memoryRegionBytes + dataOffset)),
   .test kScratch0 kScratch0, .branch .equal 0] ++
  (writableInstructions a ++ boundsInstructions a offset)

/-- Disassembling the test of the alignment. -/
lemma disassemble_alignmentCheck (a : CheckedAccess) :
    disassemble (lowerAlignmentCheck a) = some (alignmentInstructions a) := by
  have hnil : ∀ bytes : List Byte, bytes = bytes ++ [] := fun bytes => (List.append_nil _).symm
  unfold lowerAlignmentCheck alignmentInstructions
  by_cases hatomic : a.atomic = true
  · simp only [hatomic, if_true, List.append_assoc]
    rw [disassemble_moveRegister, disassemble_bitwiseAndImmediate, disassemble_branchNonzero,
      hnil (moveRegister _ _), disassemble_moveRegister, disassemble_nil]
    rfl
  · simp only [hatomic]
    by_cases halign : 1 < a.access.alignment.toNat
    · simp only [halign, if_true, List.append_assoc]
      rw [hnil (branchNonzero _)]
      simp only [Bool.false_eq_true, if_false]
      rw [disassemble_moveRegister, disassemble_bitwiseAndImmediate, disassemble_branchNonzero,
        disassemble_nil]
      rfl
    · simp [halign]

/-- Disassembling the load of the offset. -/
lemma disassemble_offset (offset : OperandLocation) (code : List Byte) :
    disassemble ((loadOperand offset kScratch1).1 ++
      ((if (loadOperand offset kScratch1).2 ≠ kScratch1 then
        moveRegister kScratch1 (loadOperand offset kScratch1).2 else []) ++ code)) =
      (disassemble code).map (offsetInstructions offset ++ ·) := by
  cases offset with
  | register r =>
      show disassemble ([] ++ ((if r ≠ kScratch1 then moveRegister kScratch1 r else []) ++ code)) =
        (disassemble code).map ((if r ≠ kScratch1 then [.move kScratch1 r] else []) ++ ·)
      by_cases hr : r = kScratch1
      · simp [hr]
      · simp only [ne_eq, hr, not_false_eq_true, if_true, List.nil_append]
        rw [disassemble_moveRegister]
        rfl
  | stack byteOffset =>
      simp only [loadOperand, offsetInstructions, ne_eq, not_true_eq_false, if_false,
        List.nil_append]
      rw [disassemble_load]
      rfl

/-- The bytes of the check are its instructions. -/
lemma disassemble_memoryCheck (a : CheckedAccess) (contextSlot : Nat) (offset : OperandLocation) :
    disassemble (lowerMemoryCheck a contextSlot offset) =
      some (checkInstructions a contextSlot offset) := by
  have htail : ∀ code : List Byte, disassemble ((if a.store then
      loadUnsignedByte kArgumentBaseRegister kScratch1
        (a.access.region.toNat * memoryRegionBytes + writableOffset) ++
        branchZero kArgumentBaseRegister else []) ++ code) =
      (disassemble code).map (writableInstructions a ++ ·) := by
    intro code
    unfold writableInstructions
    split_ifs
    · rw [List.append_assoc, disassemble_loadUnsignedByte, disassemble_branchZero, Option.map_map]
      rfl
    · simp
  simp only [lowerMemoryCheck, List.append_assoc]
  rw [disassemble_load, disassemble_branchZero, disassemble_load, disassemble_branchZero,
    disassemble_load, disassemble_branchUnsignedLess, disassemble_load, disassemble_branchZero,
    htail, disassemble_load, disassemble_branchUnsignedLess, disassemble_offset,
    disassemble_subtractImmediate, disassemble_branchUnsignedGreater, disassemble_addRegister,
    disassemble_alignmentCheck]
  rfl

/-! ## What the check decides -/

/-- The address of a field, as the encoded displacement reaches it. -/
def displaced (base : BitVec 64) (byteOffset : Nat) : BitVec 64 :=
  base + (BitVec.ofNat 32 byteOffset).signExtend 64

/-- The word at a location. -/
def OperandLocation.value (s : State) : OperandLocation → BitVec 64
  | .register r => s.registers r
  | .stack byteOffset => readWord s.memory (displaced (s.registers kRsp) byteOffset)

section decision

variable (a : CheckedAccess) (memory : BitVec 64 → Byte) (pointer offset : BitVec 64)

/-- The table of regions of the context at an address. -/
def tableOf : BitVec 64 := readWord memory (displaced pointer memoryRegionsOffset)

/-- The number of regions of the context at an address. -/
def countOf : BitVec 64 := readWord memory (displaced pointer memoryRegionCountOffset)

/-- The address of a field of the descriptor that the check reads. -/
def descriptorField (field : Nat) : BitVec 64 :=
  displaced (tableOf memory pointer) (a.access.region.toNat * memoryRegionBytes + field)

/-- The address in a region's descriptor. -/
def dataOf : BitVec 64 := readWord memory (descriptorField a memory pointer dataOffset)

/-- The size in a region's descriptor. -/
def sizeOf : BitVec 64 := readWord memory (descriptorField a memory pointer sizeOffset)

/-- The width as the check's immediate extends it. -/
def widthImmediate : BitVec 64 :=
  (BitVec.ofNat 8 (memoryWidthBytes a.access.width)).signExtend 64

/-- No branch of the check is taken. -/
@[mk_iff]
structure Passes : Prop where
  context : pointer ≠ 0
  table : tableOf memory pointer ≠ 0
  region : ((BitVec.ofNat 8 (a.access.region.toNat + 1)).signExtend 64).toNat ≤
    (countOf memory pointer).toNat
  base : dataOf a memory pointer ≠ 0
  writable : a.store = true → memory (descriptorField a memory pointer writableOffset) ≠ 0
  large : (widthImmediate a).toNat ≤ (sizeOf a memory pointer).toNat
  inside : offset.toNat ≤ (sizeOf a memory pointer - widthImmediate a).toNat
  aligned : a.atomic = true ∨ 1 < a.access.alignment.toNat →
    (dataOf a memory pointer + offset) &&& (a.access.alignment - 1).signExtend 64 = 0

end decision

/-- A byte is nonzero when it is nonzero as a word. -/
lemma setWidth_ne_zero (byte : Byte) : byte.setWidth 64 ≠ 0 ↔ byte ≠ 0 := by
  have hlt := byte.isLt
  rw [not_iff_not, ← BitVec.toNat_inj, ← BitVec.toNat_inj, BitVec.toNat_setWidth,
    Nat.mod_eq_of_lt (by omega)]
  rfl

/-- The test of the alignment decides whether the address is aligned. -/
lemma decides_alignment (a : CheckedAccess) (s : State) {address : BitVec 64}
    (haddress : s.registers kScratch0 = address) :
    Decides (alignmentInstructions a) s
      (a.atomic = true ∨ 1 < a.access.alignment.toNat →
        address &&& (a.access.alignment - 1).signExtend 64 = 0)
      fun s' => s'.registers kScratch0 = address := by
  subst haddress
  have hne : kScratch0 ≠ kScratch1 := by decide
  -- with or without the copy that follows it
  have hmask : ∀ is : List Lib.X86.Instruction,
      (∀ s' : State, Decides is s' True fun s'' =>
        s''.registers kScratch0 = s'.registers kScratch0) →
      Decides (.move kScratch1 kScratch0 :: .andImmediate kScratch1 (a.access.alignment - 1) ::
        .test kScratch1 kScratch1 :: .branch .notEqual 0 :: is) s
        (s.registers kScratch0 &&& (a.access.alignment - 1).signExtend 64 = 0)
        fun s' => s'.registers kScratch0 = s.registers kScratch0 := by
    intro is his
    refine Decides.congr (c := _ ∧ True) ?_ (iff_of_eq (and_true _))
    refine Decides.straight (execute_move ..) (Decides.straight (execute_andImmediate ..) ?_)
    refine Decides.testNotEqual ?_ ((his _).weaken fun s' hs' => ?_)
    · simp
    · simpa [State.set_registers_of_ne _ hne] using hs'
  unfold alignmentInstructions
  by_cases hatomic : a.atomic = true
  · simp only [hatomic, if_true, true_or, true_implies]
    apply hmask
    intro s'
    refine Decides.straight (execute_move ..) (Decides.done ?_)
    exact State.set_registers_of_ne _ hne _
  · by_cases halign : 1 < a.access.alignment.toNat
    · simp only [hatomic, halign, if_true, or_true, true_implies, Bool.false_eq_true, if_false]
      apply hmask
      intro s'
      exact Decides.done rfl
    · simp only [hatomic, halign, or_self, false_implies, Bool.false_eq_true, if_false]
      exact Decides.done rfl

/-- The registers that the check itself uses. -/
def kCheckRegisters : List Register := [kScratch0, kScratch1, kArgumentBaseRegister]

/-- The check does not disturb where its operand is. -/
lemma value_set {offset : OperandLocation}
    (hregister : ∀ r, offset = .register r → r ∈ kAllocationRegisters) {q : Register}
    (hq : q ∈ kCheckRegisters) (s : State) (value : BitVec 64) :
    offset.value (s.set q value) = offset.value s := by
  have hdisjoint : ∀ r ∈ kRsp :: kAllocationRegisters, ∀ q ∈ kCheckRegisters, r ≠ q := by decide
  cases offset with
  | register r =>
      exact State.set_registers_of_ne s
        (hdisjoint r (List.mem_cons_of_mem _ (hregister r rfl)) q hq) value
  | stack byteOffset =>
      simp only [OperandLocation.value, State.set_memory]
      rw [State.set_registers_of_ne s (hdisjoint kRsp List.mem_cons_self q hq)]

/-- The flags do not change an operand. -/
@[simp] lemma value_setFlags (offset : OperandLocation) (s : State) (carry zero : Bool) :
    offset.value (s.setFlags carry zero) = offset.value s := by
  cases offset <;> rfl

/-- A comparison does not change an operand. -/
@[simp] lemma value_compare (offset : OperandLocation) (s : State) (lhs rhs : BitVec 64) :
    offset.value (s.compare lhs rhs) = offset.value s := by
  cases offset <;> rfl

/-- The offset is moved to the second scratch register. -/
lemma execute_offset {offset : OperandLocation}
    (hregister : ∀ r, offset = .register r → r ∈ kAllocationRegisters) (is : List Lib.X86.Instruction)
    (s : State) :
    execute (offsetInstructions offset ++ is) s =
      execute is (s.set kScratch1 (offset.value s)) := by
  cases offset with
  | register r =>
      have hr : r ≠ kScratch1 := by
        have hmem := hregister r rfl
        rintro rfl
        revert hmem
        decide
      simp [offsetInstructions, hr, OperandLocation.value]
  | stack byteOffset => rfl

/-- The size, the offset and the alignment, once the descriptor is known. -/
lemma decides_bounds (a : CheckedAccess) {offset : OperandLocation}
    (hregister : ∀ r, offset = .register r → r ∈ kAllocationRegisters) (s : State)
    {size data value : BitVec 64}
    (hsize : readWord s.memory (displaced (s.registers kScratch1)
      (a.access.region.toNat * memoryRegionBytes + sizeOffset)) = size)
    (hdata : s.registers kScratch0 = data) (hvalue : offset.value s = value) :
    Decides (boundsInstructions a offset) s
      ((widthImmediate a).toNat ≤ size.toNat ∧ value.toNat ≤ (size - widthImmediate a).toNat ∧
        (a.atomic = true ∨ 1 < a.access.alignment.toNat →
          (data + value) &&& (a.access.alignment - 1).signExtend 64 = 0))
      fun s' => s'.registers kScratch0 = data + value := by
  have h01 : kScratch0 ≠ kScratch1 := by decide
  have h0a : kScratch0 ≠ kArgumentBaseRegister := by decide
  have h1a : kScratch1 ≠ kArgumentBaseRegister := by decide
  have hset := value_set hregister (show kArgumentBaseRegister ∈ kCheckRegisters by decide)
  refine Decides.straight (execute_load ..) (Decides.compareImmediateBelow ?_ ?_)
  · simpa [State.address, displaced] using hsize
  · refine Decides.straight (execute_offset hregister _ _) ?_
    refine Decides.straight (execute_subtractImmediate ..) ?_
    refine Decides.compareAbove ?_ ?_ (Decides.straight (execute_add ..) (decides_alignment a _ ?_))
    · simp [State.set_registers_of_ne _ h1a, hset, hvalue]
    · simpa [State.set_registers_of_ne _ h1a.symm, State.address, displaced, widthImmediate]
        using hsize
    · simp [State.set_registers_of_ne _ h0a, State.set_registers_of_ne _ h01,
        State.set_registers_of_ne _ h1a, hset, hvalue, hdata]

/-- **The check decides** whether the access passes; when it does, the first scratch register holds
the address. -/
lemma decides_memoryCheck (a : CheckedAccess) (contextSlot : Nat) {offset : OperandLocation}
    (hregister : ∀ r, offset = .register r → r ∈ kAllocationRegisters) (s : State) :
    let pointer := readWord s.memory (displaced (s.registers kRsp) (contextSlot * 8))
    Decides (checkInstructions a contextSlot offset) s
      (Passes a s.memory pointer (offset.value s))
      fun s' => s'.registers kScratch0 = dataOf a s.memory pointer + offset.value s := by
  intro pointer
  have h01 : kScratch0 ≠ kScratch1 := by decide
  have h0a : kScratch0 ≠ kArgumentBaseRegister := by decide
  have h1a : kScratch1 ≠ kArgumentBaseRegister := by decide
  have hset₀ := value_set hregister (show kScratch0 ∈ kCheckRegisters by decide)
  have hset₁ := value_set hregister (show kScratch1 ∈ kCheckRegisters by decide)
  have hsetₐ := value_set hregister (show kArgumentBaseRegister ∈ kCheckRegisters by decide)
  -- the permission and the bounds, once the base of the region is known
  have htail : ∀ s₁ : State, s₁.memory = s.memory →
      s₁.registers kScratch1 = tableOf s.memory pointer →
      s₁.registers kScratch0 = dataOf a s.memory pointer → offset.value s₁ = offset.value s →
      Decides (writableInstructions a ++ boundsInstructions a offset) s₁
        ((a.store = true → s.memory (descriptorField a s.memory pointer writableOffset) ≠ 0) ∧
          (widthImmediate a).toNat ≤ (sizeOf a s.memory pointer).toNat ∧
          (offset.value s).toNat ≤ (sizeOf a s.memory pointer - widthImmediate a).toNat ∧
          (a.atomic = true ∨ 1 < a.access.alignment.toNat →
            (dataOf a s.memory pointer + offset.value s) &&&
              (a.access.alignment - 1).signExtend 64 = 0))
        fun s' => s'.registers kScratch0 = dataOf a s.memory pointer + offset.value s := by
    intro s₁ hmemory h₁ h₀ hoffset
    unfold writableInstructions
    by_cases hstore : a.store = true
    · simp only [hstore, if_true, true_implies]
      have hbyte : s₁.memory (s₁.address kScratch1 (BitVec.ofNat 32
          (a.access.region.toNat * memoryRegionBytes + writableOffset))) =
          s.memory (descriptorField a s.memory pointer writableOffset) := by
        rw [hmemory, State.address, h₁]
        rfl
      rw [← setWidth_ne_zero]
      refine Decides.straight (execute_loadByte ..)
        (Decides.testEqual ?_ (decides_bounds a hregister _ ?_ ?_ ?_))
      · simp [hbyte]
      · simp [State.set_registers_of_ne _ h1a, hmemory, h₁, sizeOf, descriptorField]
      · simp [State.set_registers_of_ne _ h0a, h₀]
      · simp [hsetₐ, hoffset]
    · simp only [hstore, Bool.false_eq_true, if_false, false_implies, true_and, List.nil_append]
      refine decides_bounds a hregister _ ?_ h₀ hoffset
      rw [hmemory, h₁]
      rfl
  refine Decides.congr ?_ (passes_iff ..).symm
  refine Decides.straight (execute_load ..) (Decides.testEqual ?_ ?_)
  · simp [State.address, displaced, pointer]
  refine Decides.straight (execute_load ..) (Decides.testEqual ?_ ?_)
  · simp [State.address, displaced, pointer, tableOf]
  refine Decides.straight (execute_load ..) (Decides.compareImmediateBelow ?_ ?_)
  · simp [State.address, displaced, pointer, countOf, State.set_registers_of_ne _ h01]
  refine Decides.straight (execute_load ..) (Decides.testEqual ?_ (htail _ ?_ ?_ ?_ ?_))
  · simp [State.address, displaced, pointer, dataOf, descriptorField, tableOf,
      State.set_registers_of_ne _ h1a]
  · simp
  · simp [State.address, displaced, pointer, tableOf, State.set_registers_of_ne _ h1a,
      State.set_registers_of_ne _ h01.symm]
  · simp [State.address, displaced, pointer, dataOf, descriptorField, tableOf,
      State.set_registers_of_ne _ h1a]
  · simp [hset₀, hset₁, hsetₐ]

end UniJit.Jit.X86
