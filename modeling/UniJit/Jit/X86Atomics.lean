import UniJit.Ir.AtomicCells
import UniJit.Jit.X86ProgramAssembler

/-!
# Atomic operations on x86-64

The sequence of an atomic operation, once the address of the access is in `r10`. The operands are
in slots of the frame. An exchange and an addition are one locked instruction; the bitwise
operations load the cell and retry a compare-exchange until no other write comes between.

`atomicBlock` is the instructions that the emitter leaves behind, and `lowerAtomic_exact` follows
them: the machine does what the operation does to the cell.
-/

namespace UniJit.Jit.X86

open UniJit.Ir UniJit.Runtime UniJit.Lib UniJit.Lib.X86 UniJit.Lib.X86Program
open UniJit.Lib.MachineCode UniJit.Jit.CodeBuffer

/-! ## Emitters -/

/-- The prefix of an operation of a width. -/
def rexWidth (regField rmField : Nat) (wide : Bool) : Byte :=
  BitVec.ofNat 8 (0x40 ||| (if wide then 0x08 else 0) ||| (regField >>> 3) <<< 2 ||| rmField >>> 3)

/-- Encodes a store. -/
def store (source base : Register) (byteOffset : Nat) : CodeBytes :=
  rex source base :: 0x89 :: (memoryModrm source base ++ emit32 byteOffset)

/-- Encodes a load of a width, extended by zeros. -/
def loadUnsigned (destination base : Register) (byteOffset width : Nat) : CodeBytes :=
  if width = 8 then load destination base byteOffset
  else if width = 4 then
    rexWidth destination base false :: 0x8B :: (memoryModrm destination base ++ emit32 byteOffset)
  else
    rexWidth destination base true :: 0x0F :: (if width = 1 then 0xB6 else 0xB7) ::
      (memoryModrm destination base ++ emit32 byteOffset)

/-- Encodes a store of a width. -/
def storeWidth (source base : Register) (byteOffset width : Nat) : CodeBytes :=
  if width = 8 then store source base byteOffset
  else
    (if width = 2 then [0x66] else []) ++
      rexWidth source base false :: (if width = 1 then 0x88 else 0x89) ::
        (memoryModrm source base ++ emit32 byteOffset)

/-- Encodes an extension from a width. -/
def zeroExtend (destination : Register) (width : Nat) : CodeBytes :=
  if width = 8 then []
  else if width = 4 then
    [rexWidth destination destination false, 0x8B, modrm 3 destination destination]
  else
    [rexWidth destination destination true, 0x0F, if width = 1 then 0xB6 else 0xB7,
      modrm 3 destination destination]

/-- Encodes an exchange with memory. -/
def atomicExchange (source base : Register) (width : Nat) : CodeBytes :=
  (if width = 2 then [0x66] else []) ++
    rexWidth source base (width = 8) :: (if width = 1 then 0x86 else 0x87) ::
      (memoryModrm source base ++ emit32 0)

/-- Encodes a locked exchange and addition. -/
def atomicFetchAdd (source base : Register) (width : Nat) : CodeBytes :=
  0xF0 :: ((if width = 2 then [0x66] else []) ++
    rexWidth source base (width = 8) :: 0x0F :: (if width = 1 then 0xC0 else 0xC1) ::
      (memoryModrm source base ++ emit32 0))

/-- Encodes a locked compare-exchange. -/
def atomicCompareExchange (desired base : Register) (width : Nat) : CodeBytes :=
  0xF0 :: ((if width = 2 then [0x66] else []) ++
    rexWidth desired base (width = 8) :: 0x0F :: (if width = 1 then 0xB0 else 0xB1) ::
      (memoryModrm desired base ++ emit32 0))

namespace Assembler

/-- The bitwise operations by their assembler functions. -/
def fetchBitwise : AtomicOpcode → Register → Register → Register → Emit Unit
  | .fetchAnd => bitwiseAnd
  | .fetchOr => bitwiseOr
  | _ => bitwiseXor

/-- Emits an atomic operation. -/
def lowerAtomicOperation (operation : AtomicOpcode) (access : AtomicAccessDescriptor)
    (operandOffset auxiliaryOffset : Nat) : Emit (Except Status Unit) := do
  let width := memoryWidthBytes access.memory.width
  match operation with
  | .load =>
      emit (loadUnsigned kScratch0 kScratch1 0 width)
      pure (.ok ())
  | .store =>
      emit (load kArgumentBaseRegister kRsp operandOffset)
      if access.order = .sequentiallyConsistent then
        emit (atomicExchange kArgumentBaseRegister kScratch1 width)
      else emit (storeWidth kArgumentBaseRegister kScratch1 0 width)
      emit (load kScratch0 kRsp operandOffset)
      pure (.ok ())
  | .exchange =>
      emit (load kArgumentBaseRegister kRsp operandOffset)
      emit (atomicExchange kArgumentBaseRegister kScratch1 width)
      emit (zeroExtend kArgumentBaseRegister width)
      moveRegister kScratch0 kArgumentBaseRegister
      pure (.ok ())
  | .compareExchange =>
      emit (load kScratch0 kRsp operandOffset)
      emit (zeroExtend kScratch0 width)
      emit (load kArgumentBaseRegister kRsp auxiliaryOffset)
      emit (atomicCompareExchange kArgumentBaseRegister kScratch1 width)
      emit (zeroExtend kScratch0 width)
      pure (.ok ())
  | .fetchAdd =>
      emit (load kArgumentBaseRegister kRsp operandOffset)
      emit (atomicFetchAdd kArgumentBaseRegister kScratch1 width)
      emit (zeroExtend kArgumentBaseRegister width)
      moveRegister kScratch0 kArgumentBaseRegister
      pure (.ok ())
  | operation =>
      emit (loadUnsigned kScratch0 kScratch1 0 width)
      let retry ← size
      emit (load kArgumentBaseRegister kRsp operandOffset)
      fetchBitwise operation kArgumentBaseRegister kArgumentBaseRegister kScratch0
      emit (atomicCompareExchange kArgumentBaseRegister kScratch1 width)
      patchBranch (← branchNotEqualFlags) retry

end Assembler

open Assembler

/-! ## The instructions -/

/-- The zero extension of a register to 64 bits; there is nothing to do for a whole register. -/
def zeroExtendItems (w : Width) (r : Register) : List (X86Program.Instruction × CodeBytes) :=
  if w = .quadword then [] else [(.zeroExtend w r r, zeroExtend r w.bytes)]

/-- The load of an operand with its bytes. -/
def operandItem (r : Register) (byteOffset : Nat) : X86Program.Instruction × CodeBytes :=
  (.load .quadword r 4 (BitVec.ofNat 32 byteOffset), load r kRsp byteOffset)

/-- The operation between an operand and the old value. -/
def bitwiseOpcode : AtomicOpcode → X86Program.BinaryOpcode
  | .fetchAnd => .and
  | .fetchOr => .or
  | _ => .xor

/-- The opcode of a bitwise update. -/
def bitwiseByte : AtomicOpcode → Byte
  | .fetchAnd => 0x21
  | .fetchOr => 0x09
  | _ => 0x31

/-- Back to the load of the operand. -/
def retryDisplacement (w : Width) : BitVec 32 := if w = .word then -27 else -26

/-- The loop of a bitwise update. -/
def bitwiseItems (o : AtomicOpcode) (w : Width) (operandOffset : Nat) :
    List (X86Program.Instruction × CodeBytes) :=
  [(.load w 0 10 0, loadUnsigned 0 10 0 w.bytes),
   -- retried from here
   operandItem 11 operandOffset,
   (.binary (bitwiseOpcode o) 11 0, binaryBytes (bitwiseByte o) 11 0),
   (.compareExchange w 11 10 0, atomicCompareExchange 11 10 w.bytes),
   (.branch .notEqual (retryDisplacement w), 0x0F :: 0x85 :: leBytes 4 (retryDisplacement w))]

/-- The sequence of any other operation. -/
def atomicItems (o : AtomicOpcode) (w : Width) (exchanging : Bool)
    (operandOffset auxiliaryOffset : Nat) : List (X86Program.Instruction × CodeBytes) :=
  let exchangeItem := (.exchange w 11 10 0, atomicExchange 11 10 w.bytes)
  let moveItem := (.move 0 11, X86.moveRegister 0 11)
  match o with
  | .load => [(.load w 0 10 0, loadUnsigned 0 10 0 w.bytes)]
  | .store =>
      [operandItem 11 operandOffset,
       if exchanging then exchangeItem else (.store w 11 10 0, storeWidth 11 10 0 w.bytes),
       operandItem 0 operandOffset]
  | .exchange =>
      operandItem 11 operandOffset :: exchangeItem :: (zeroExtendItems w 11 ++ [moveItem])
  | .compareExchange =>
      operandItem 0 operandOffset :: (zeroExtendItems w 0 ++
        operandItem 11 auxiliaryOffset ::
        (.compareExchange w 11 10 0, atomicCompareExchange 11 10 w.bytes) :: zeroExtendItems w 0)
  | .fetchAdd =>
      operandItem 11 operandOffset :: (.exchangeAdd w 11 10 0, atomicFetchAdd 11 10 w.bytes) ::
        (zeroExtendItems w 11 ++ [moveItem])
  | o => bitwiseItems o w operandOffset

/-- The bytes of an operand's load encode it. -/
lemma encodes_operandItem {r : Register} (hr : r = 0 ∨ r = 11) (byteOffset : Nat) :
    x86.Encodes (operandItem r byteOffset).1 (operandItem r byteOffset).2 := by
  have hread : ∀ bytes rest : CodeBytes, readInstruction
      (rex r kRsp :: 0x8B :: (memoryModrm r kRsp ++ bytes) ++ rest) =
        (decode32 (bytes ++ rest)).map fun read =>
          (.load .quadword r 4 read.1, read.2) := by
    rcases hr with rfl | rfl <;> exact fun _ _ => rfl
  apply encodes_of_read
  intro rest
  refine (hread (emit32 byteOffset) rest).trans ?_
  rw [emit32, decode32_leBytes]
  rfl

/-- The bytes of an extension encode it. -/
lemma encodes_zeroExtendItems (w : Width) {r : Register} (hr : r = 0 ∨ r = 11) :
    ∀ item ∈ zeroExtendItems w r, x86.Encodes item.1 item.2 := by
  unfold zeroExtendItems
  split_ifs with hwide
  · exact List.forall_mem_nil _
  · rw [List.forall_mem_singleton]
    rcases hr with rfl | rfl
    · cases w <;> first | exact absurd rfl hwide | exact encodes_of_read fun _ => rfl
    · cases w <;> first | exact absurd rfl hwide | exact encodes_of_read fun _ => rfl

section encodes

variable (w : Width)

lemma encodes_loadUnsigned : x86.Encodes (.load w 0 10 0) (loadUnsigned 0 10 0 w.bytes) := by
  cases w <;> exact encodes_of_read fun _ => rfl

lemma encodes_storeWidth : x86.Encodes (.store w 11 10 0) (storeWidth 11 10 0 w.bytes) := by
  cases w <;> exact encodes_of_read fun _ => rfl

lemma encodes_atomicExchange :
    x86.Encodes (.exchange w 11 10 0) (atomicExchange 11 10 w.bytes) := by
  cases w <;> exact encodes_of_read fun _ => rfl

lemma encodes_atomicFetchAdd :
    x86.Encodes (.exchangeAdd w 11 10 0) (atomicFetchAdd 11 10 w.bytes) := by
  cases w <;> exact encodes_of_read fun _ => rfl

lemma encodes_atomicCompareExchange :
    x86.Encodes (.compareExchange w 11 10 0) (atomicCompareExchange 11 10 w.bytes) := by
  cases w <;> exact encodes_of_read fun _ => rfl

lemma encodes_bitwise (o : AtomicOpcode) :
    x86.Encodes (.binary (bitwiseOpcode o) 11 0) (binaryBytes (bitwiseByte o) 11 0) := by
  cases o <;> exact encodes_of_read fun _ => rfl

/-- The bytes of a bitwise update encode its instructions. -/
lemma encodes_bitwiseItems (o : AtomicOpcode) (operandOffset : Nat) :
    ∀ item ∈ bitwiseItems o w operandOffset, x86.Encodes item.1 item.2 := by
  simp only [bitwiseItems, List.forall_mem_cons]
  exact ⟨encodes_loadUnsigned w, encodes_operandItem (.inr rfl) _, encodes_bitwise o,
    encodes_atomicCompareExchange w, encodes_branch rfl _, List.forall_mem_nil _⟩

end encodes

/-- The code of an operation. -/
def atomicBlock (o : AtomicOpcode) (w : Width) (exchanging : Bool)
    (operandOffset auxiliaryOffset : Nat) : Block x86 where
  items := atomicItems o w exchanging operandOffset auxiliaryOffset
  encodes := by
    have hmove := encodes_moveRegister 0 11
    have hexchange := encodes_atomicExchange w
    have hresult : ∀ byteOffset, x86.Encodes (operandItem 0 byteOffset).1
        (operandItem 0 byteOffset).2 := encodes_operandItem (.inl rfl)
    have hoperand : ∀ byteOffset, x86.Encodes (operandItem 11 byteOffset).1
        (operandItem 11 byteOffset).2 := encodes_operandItem (.inr rfl)
    have hextend := encodes_zeroExtendItems w (r := 11) (.inr rfl)
    have hextendResult := encodes_zeroExtendItems w (r := 0) (.inl rfl)
    cases o with
    | load => exact List.forall_mem_singleton.mpr (encodes_loadUnsigned w)
    | store =>
        simp only [atomicItems, List.forall_mem_cons]
        refine ⟨hoperand _, ?_, hresult _, List.forall_mem_nil _⟩
        cases exchanging with
        | true => exact hexchange
        | false => exact encodes_storeWidth w
    | exchange =>
        simp only [atomicItems, List.forall_mem_cons, List.forall_mem_append]
        exact ⟨hoperand _, hexchange, hextend, hmove, List.forall_mem_nil _⟩
    | compareExchange =>
        simp only [atomicItems, List.forall_mem_cons, List.forall_mem_append]
        exact ⟨hresult _, hextendResult, hoperand _, encodes_atomicCompareExchange w,
          hextendResult⟩
    | fetchAdd =>
        simp only [atomicItems, List.forall_mem_cons, List.forall_mem_append]
        exact ⟨hoperand _, encodes_atomicFetchAdd w, hextend, hmove, List.forall_mem_nil _⟩
    | fetchAnd => exact encodes_bitwiseItems w .fetchAnd operandOffset
    | fetchOr => exact encodes_bitwiseItems w .fetchOr operandOffset
    | fetchXor => exact encodes_bitwiseItems w .fetchXor operandOffset

/-- The operand width of an access; atomics are at most eight bytes wide. -/
def operandWidth : MemoryWidth → Width
  | .k8 => .byte
  | .k16 => .word
  | .k32 => .doubleword
  | _ => .quadword

/-- The emitter of a bitwise operation leaves its loop behind. -/
lemma run_bitwise (o : AtomicOpcode) (w : Width) (operandOffset : Nat) (front : CodeBytes) :
    StateT.run (do
      emit (loadUnsigned kScratch0 kScratch1 0 w.bytes)
      let retry ← size
      emit (load kArgumentBaseRegister kRsp operandOffset)
      fetchBitwise o kArgumentBaseRegister kArgumentBaseRegister kScratch0
      emit (atomicCompareExchange kArgumentBaseRegister kScratch1 w.bytes)
      patchBranch (← branchNotEqualFlags) retry : Emit (Except Status Unit)) front =
        (.ok (), front ++ (bitwiseItems o w operandOffset).flatMap (·.2)) := by
  let loaded := loadUnsigned kScratch0 kScratch1 0 w.bytes
  let body := load kArgumentBaseRegister kRsp operandOffset ++ binaryBytes (bitwiseByte o) 11 0 ++
    atomicCompareExchange kArgumentBaseRegister kScratch1 w.bytes
  let branch : CodeBytes := [0x0F, 0x85]
  have hbitwise : fetchBitwise o kArgumentBaseRegister kArgumentBaseRegister kScratch0 =
      emit (binaryBytes (bitwiseByte o) 11 0) := by
    cases o <;> rfl
  have hdelta : branchDelta (loaded.length + (body.length + 2)) loaded.length =
      (retryDisplacement w).toInt := by
    have hlength : (body.length + 6 : Int) = -(retryDisplacement w).toInt := by cases w <;> rfl
    unfold branchDelta
    omega
  have hdisplacement : BitVec.ofInt 32 (retryDisplacement w).toInt = retryDisplacement w :=
    BitVec.ofInt_toInt
  have hlower : -2 ^ 31 ≤ branchDelta (loaded.length + (body.length + 2)) loaded.length := by
    rw [hdelta]
    cases w <;> decide
  have hupper : branchDelta (loaded.length + (body.length + 2)) loaded.length ≤ 2 ^ 31 - 1 := by
    rw [hdelta]
    cases w <;> decide
  have hpatch := run_patchBranch front (loaded ++ (body ++ branch) ++ leBytes 4 (0 : BitVec 32))
    hlower hupper
  have hpatched : patchBytes (leBytes 4 (retryDisplacement w)) (loaded.length + (body.length + 2))
      (loaded ++ (body ++ branch) ++ leBytes 4 (0 : BitVec 32)) =
        loaded ++ (body ++ branch) ++ leBytes 4 (retryDisplacement w) := by
    have hlength : loaded.length + (body.length + 2) = (loaded ++ (body ++ branch)).length + 0 := by
      simp [branch]
    rw [hlength, patchBytes_append]
    rfl
  rw [hdelta, hdisplacement, hpatched] at hpatch
  have hbranch := run_branchAfter front (loaded ++ body) branch
  have hcode : front ++ loaded ++ load kArgumentBaseRegister kRsp operandOffset ++
      binaryBytes (bitwiseByte o) 11 0 ++
      atomicCompareExchange kArgumentBaseRegister kScratch1 w.bytes = front ++ (loaded ++ body) := by
    simp only [body, List.append_assoc]
  have hlength : front.length + ((loaded ++ body).length + branch.length) =
      front.length + (loaded.length + (body.length + 2)) := by
    simp [branch, Nat.add_assoc]
  simp only [StateT.run_bind, run_emit_end, pure_bind, run_size, hbitwise, branchNotEqualFlags]
  rw [hcode, hbranch, pure_bind, hlength]
  simp only [List.append_assoc] at hpatch ⊢
  refine hpatch.trans ?_
  simp only [bitwiseItems, List.flatMap_cons, List.flatMap_nil, List.append_nil, body]
  rfl

/-- The emitter leaves the instructions of the block behind. -/
lemma run_lowerAtomicOperation (o : AtomicOpcode) {access : AtomicAccessDescriptor}
    (hwidth : access.memory.width ≠ .k128) (operandOffset auxiliaryOffset : Nat)
    (front : CodeBytes) :
    (lowerAtomicOperation o access operandOffset auxiliaryOffset).run front =
      (.ok (), front ++ (atomicBlock o (operandWidth access.memory.width)
        (access.order = .sequentiallyConsistent) operandOffset auxiliaryOffset).bytes) := by
  have hbytes : memoryWidthBytes access.memory.width =
      (operandWidth access.memory.width).bytes := by
    cases h : access.memory.width <;> first | rfl | exact absurd h hwidth
  have hextend : ∀ (w : Width) (r : Register),
      (zeroExtendItems w r).flatMap (·.2) = zeroExtend r w.bytes := by
    intro w r
    cases w <;> rfl
  simp only [lowerAtomicOperation, hbytes, Block.bytes, atomicBlock]
  generalize operandWidth access.memory.width = w
  cases o with
  | fetchAnd => exact run_bitwise .fetchAnd w operandOffset front
  | fetchOr => exact run_bitwise .fetchOr w operandOffset front
  | fetchXor => exact run_bitwise .fetchXor w operandOffset front
  | load =>
      simp only [StateT.run_bind, run_emit_end, pure_bind, StateT.run_pure, atomicItems,
        List.flatMap_cons, List.flatMap_nil, List.append_nil]
      rfl
  | store =>
      by_cases horder : access.order = .sequentiallyConsistent
      · simp only [horder, if_true, decide_true, StateT.run_bind, run_emit_end, pure_bind,
          StateT.run_pure, atomicItems, List.flatMap_cons, List.flatMap_nil, List.append_nil,
          List.append_assoc]
        rfl
      · simp only [horder, if_false, decide_false, Bool.false_eq_true, StateT.run_bind,
          run_emit_end, pure_bind, StateT.run_pure, atomicItems, List.flatMap_cons,
          List.flatMap_nil, List.append_nil, List.append_assoc]
        rfl
  | exchange =>
      simp only [StateT.run_bind, run_emit_end, pure_bind, StateT.run_pure,
        Assembler.moveRegister, atomicItems, List.flatMap_cons, List.flatMap_append, hextend,
        List.flatMap_nil, List.append_nil, List.append_assoc]
      rfl
  | compareExchange =>
      simp only [StateT.run_bind, run_emit_end, pure_bind, StateT.run_pure, atomicItems,
        List.flatMap_cons, List.flatMap_append, hextend, List.append_assoc]
      rfl
  | fetchAdd =>
      simp only [StateT.run_bind, run_emit_end, pure_bind, StateT.run_pure,
        Assembler.moveRegister, atomicItems, List.flatMap_cons, List.flatMap_append, hextend,
        List.flatMap_nil, List.append_nil, List.append_assoc]
      rfl

/-! ## The cell in memory -/

/-- The processor sees the memory of the machine. -/
def SameMemory (m : Machine) (memory : BitVec 64 → Byte) : Prop := ∀ a, memory a = m.memory a.toNat

section memory

variable {m : Machine} {memory : BitVec 64 → Byte} {w : Width} {a : BitVec 64}

lemma bytes_le (w : Width) : 8 * w.bytes ≤ 64 := by cases w <;> decide

/-- What the processor reads is the interpreter's cell. -/
lemma read_eq_cellAt (h : SameMemory m memory) (hfits : a.toNat + w.bytes ≤ 2 ^ 64) :
    w.read memory a = (cellAt w.bytes m a.toNat).setWidth 64 := by
  have hbytes : ((List.range w.bytes).map fun i => memory (a + BitVec.ofNat 64 i)) =
      m.readBytes a.toNat w.bytes := by
    apply List.map_congr_left
    intro i hi
    rw [List.mem_range] at hi
    have haddress : (a + BitVec.ofNat 64 i).toNat = a.toNat + i := by
      rw [BitVec.toNat_add, BitVec.toNat_ofNat]
      omega
    rw [h, haddress]
  rw [Width.read, hbytes, cellAt, setWidth_ofLeBytes (by rw [length_readBytes])]

/-- What the processor writes is the interpreter's cell. -/
lemma write_sameMemory (h : SameMemory m memory) (hfits : a.toNat + w.bytes ≤ 2 ^ 64)
    (value : Word) :
    SameMemory (setCellAt w.bytes m a.toNat (value.setWidth (8 * w.bytes)))
      (w.write memory a value) := by
  intro b
  have hindex : (b - a).toNat < w.bytes ↔
      a.toNat ≤ b.toNat ∧ b.toNat < a.toNat + w.bytes := by
    rw [BitVec.toNat_sub]
    omega
  simp only [Width.write, setCellAt, Machine.writeBytes, length_leBytes,
    leBytes_setWidth (le_refl (8 * w.bytes))]
  by_cases hinside : (b - a).toNat < w.bytes
  · have hdistance : (b - a).toNat = b.toNat - a.toNat := by
      rw [BitVec.toNat_sub]
      have hbounds := hindex.mp hinside
      omega
    rw [if_pos hinside, if_pos (hindex.mp hinside), hdistance]
    rw [hdistance] at hinside
    simp [leBytes, hinside]
  · rw [if_neg hinside, if_neg fun h => hinside (hindex.mpr h), h b]

/-- A word that a write does not touch. -/
lemma read_write_of_apart {slot : BitVec 64} (value : Word)
    (hapart : ∀ i < 8, ¬ (slot + BitVec.ofNat 64 i - a).toNat < w.bytes) :
    Width.read .quadword (w.write memory a value) slot = Width.read .quadword memory slot := by
  refine congrArg (ofLeBytes 64) (List.map_congr_left fun i hi => ?_)
  exact if_neg (hapart i (List.mem_range.mp hi))

end memory

/-! ## Following the instructions -/

/-- A state in front of an atomic operation on the cell at `address`: its operands are in slots of
the frame, and the cell does not reach into the operand's slot. -/
structure AtomicOperands (o : AtomicOpcode) (width operandOffset auxiliaryOffset : Nat)
    (value desired : Word) (m : Machine) (address : Nat) (s : X86Program.State) : Prop where
  memory : SameMemory m s.memory
  resolved : (s.registers kScratch1).toNat = address
  operand : Width.read .quadword s.memory (s.address kRsp (BitVec.ofNat 32 operandOffset)) = value
  auxiliary : o = .compareExchange →
    Width.read .quadword s.memory (s.address kRsp (BitVec.ofNat 32 auxiliaryOffset)) = desired
  apart : ∀ i < 8, ¬ (s.address kRsp (BitVec.ofNat 32 operandOffset) + BitVec.ofNat 64 i -
    s.registers kScratch1).toNat < width

/-- The cell lies in the address space as well. -/
structure AtomicFrame (o : AtomicOpcode) (w : Width) (operandOffset auxiliaryOffset : Nat)
    (value desired : Word) (m : Machine) (address : Nat) (s : X86Program.State) : Prop
    extends AtomicOperands o w.bytes operandOffset auxiliaryOffset value desired m address s where
  fits : address + w.bytes ≤ 2 ^ 64

/-- A state behind an atomic operation. -/
structure AtomicDone (s₀ : X86Program.State) (m : Machine) (result : Word)
    (s : X86Program.State) : Prop where
  result : s.registers kScratch0 = result
  memory : SameMemory m s.memory
  others : ∀ r, r ≠ kScratch0 → r ≠ kArgumentBaseRegister → s.registers r = s₀.registers r

section follow

variable {o : AtomicOpcode} {w : Width} {exchanging : Bool} {operandOffset auxiliaryOffset : Nat}
  {value desired : Word} {m : Machine} {address : Nat} {s t : X86Program.State}

/-- The word that the processor reads from the cell. -/
lemma truncate_cell (w : Width) (cell : BitVec (8 * w.bytes)) :
    w.truncate (cell.setWidth 64) = cell.setWidth 64 := by
  have hbits := bytes_le w
  exact congrArg (BitVec.setWidth 64) (setWidth_setWidth_cell (by omega) cell)

lemma address_cell (s : X86Program.State) : s.address 10 0 = s.registers 10 := BitVec.add_zero _

namespace AtomicFrame

/-- Only the memory and two registers matter. -/
lemma congr (h : AtomicFrame o w operandOffset auxiliaryOffset value desired m address s)
    (hmemory : t.memory = s.memory) (hresolved : t.registers kScratch1 = s.registers kScratch1)
    (hstack : t.registers kRsp = s.registers kRsp) :
    AtomicFrame o w operandOffset auxiliaryOffset value desired m address t := by
  have haddress : ∀ displacement, t.address kRsp displacement = s.address kRsp displacement :=
    fun displacement => congrArg (· + displacement.signExtend 64) hstack
  refine ⟨⟨?_, ?_, ?_, ?_, ?_⟩, h.fits⟩
  · rw [hmemory]
    exact h.memory
  · rw [hresolved]
    exact h.resolved
  · rw [hmemory, haddress]
    exact h.operand
  · rw [hmemory, haddress]
    exact h.auxiliary
  · rw [haddress, hresolved]
    exact h.apart

/-- Registers that are neither the address nor the stack pointer. -/
lemma set (h : AtomicFrame o w operandOffset auxiliaryOffset value desired m address s)
    {r : Register} (hr : r = 0 ∨ r = 11) (word : Word) :
    AtomicFrame o w operandOffset auxiliaryOffset value desired m address (s.set r word) := by
  rcases hr with rfl | rfl
  · exact h.congr rfl rfl rfl
  · exact h.congr rfl rfl rfl

variable (h : AtomicFrame o w operandOffset auxiliaryOffset value desired m address s)

include h

/-- What a read of the cell gives. -/
lemma observed : w.read s.memory (s.address 10 0) = (cellAt w.bytes m address).setWidth 64 := by
  have hfits : (s.registers 10).toNat + w.bytes ≤ 2 ^ 64 := h.resolved.symm ▸ h.fits
  have hread := read_eq_cellAt h.memory hfits
  have haddress : (s.registers 10).toNat = address := h.resolved
  rw [haddress] at hread
  rw [address_cell, hread]

/-- What a write of the cell leaves. -/
lemma written (word : Word) :
    SameMemory (setCellAt w.bytes m address (word.setWidth (8 * w.bytes)))
      (w.write s.memory (s.address 10 0) word) := by
  have hfits : (s.registers 10).toNat + w.bytes ≤ 2 ^ 64 := h.resolved.symm ▸ h.fits
  have hwrite := write_sameMemory h.memory hfits word
  have haddress : (s.registers 10).toNat = address := h.resolved
  rw [haddress] at hwrite
  rw [address_cell]
  exact hwrite

/-- The load of an operand. -/
lemma step_operand (r : Register) (length : Nat) :
    x86.step (operandItem r operandOffset).1 length s = .next (s.set r value) :=
  congrArg (fun word => Effect.next (s.set r word)) h.operand

/-- The load of the cell. -/
lemma step_load (length : Nat) :
    x86.step (.load w 0 10 0) length s =
      .next (s.set 0 ((cellAt w.bytes m address).setWidth 64)) :=
  congrArg (fun word => Effect.next (s.set 0 word)) h.observed

end AtomicFrame

/-- A zero extension, if there is one. -/
lemma completes_zeroExtend {b : Block x86}
    (before after : List (X86Program.Instruction × CodeBytes)) {r : Register}
    {Q : X86Program.State → Prop} {k : Nat}
    (hitems : b.items = before ++ (zeroExtendItems w r ++ after)) (hk : k = before.length)
    (hrest : b.Completes (k + (zeroExtendItems w r).length)
      (s.set r (w.truncate (s.registers r))) Q) :
    b.Completes k s Q := by
  subst hk
  by_cases hwide : w = .quadword
  · have hnone : zeroExtendItems w r = [] := if_pos hwide
    have hsame : s.set r (w.truncate (s.registers r)) = s := by
      rw [hwide, truncate_quadword, X86Program.State.set, Function.update_eq_self]
    rw [hnone, hsame] at hrest
    exact hrest
  · have hone : zeroExtendItems w r = [(.zeroExtend w r r, zeroExtend r w.bytes)] := if_neg hwide
    have hitem : b.items[before.length]? = some (.zeroExtend w r r, zeroExtend r w.bytes) := by
      rw [hitems, hone, List.getElem?_append_right le_rfl]
      simp
    rw [hone] at hrest
    exact .next hitem rfl hrest

/-- What is known once the cell has been written and the result is in its register. -/
lemma atomicDone_of_written
    (h : AtomicFrame o w operandOffset auxiliaryOffset value desired m address s) {word : Word}
    (hword : word.setWidth (8 * w.bytes) = o.replace (cellAt w.bytes m address)
      (value.setWidth (8 * w.bytes)) (desired.setWidth (8 * w.bytes)))
    (hmemory : t.memory = w.write s.memory (s.address 10 0) word)
    (hresult : t.registers 0 = atomicResult o value (cellAt w.bytes m address))
    (hothers : ∀ r, r ≠ 0 → r ≠ 11 → t.registers r = s.registers r) :
    AtomicDone s (atomicMachine w.bytes o m address value desired)
      (atomicResult o value (cellAt w.bytes m address)) t := by
  refine ⟨hresult, ?_, hothers⟩
  rw [hmemory, atomicMachine, ← hword]
  exact h.written word

/-- What is known when the cell keeps its value. -/
lemma atomicDone_of_kept
    (h : AtomicFrame o w operandOffset auxiliaryOffset value desired m address s)
    (hkept : o.replace (cellAt w.bytes m address) (value.setWidth (8 * w.bytes))
      (desired.setWidth (8 * w.bytes)) = cellAt w.bytes m address)
    (hmemory : t.memory = s.memory)
    (hresult : t.registers 0 = atomicResult o value (cellAt w.bytes m address))
    (hothers : ∀ r, r ≠ 0 → r ≠ 11 → t.registers r = s.registers r) :
    AtomicDone s (atomicMachine w.bytes o m address value desired)
      (atomicResult o value (cellAt w.bytes m address)) t := by
  refine ⟨hresult, ?_, hothers⟩
  rw [hmemory, atomicMachine, hkept, setCellAt_cellAt]
  exact h.memory

/-- The atomic load. -/
lemma completes_load
    (h : AtomicFrame .load w operandOffset auxiliaryOffset value desired m address s) :
    (atomicBlock .load w exchanging operandOffset auxiliaryOffset).Completes 0 s
      (AtomicDone s (atomicMachine w.bytes .load m address value desired)
        (atomicResult .load value (cellAt w.bytes m address))) := by
  refine .next rfl (h.step_load _) (.done rfl (atomicDone_of_kept h rfl rfl ?_ fun r hr _ => ?_))
  · rw [X86Program.State.set_registers, if_pos rfl]
    rfl
  · rw [X86Program.State.set_registers, if_neg hr]

/-- The slot of the operand keeps its word when the cell is written. -/
lemma AtomicFrame.operand_written
    (h : AtomicFrame o w operandOffset auxiliaryOffset value desired m address s) (word : Word) :
    Width.read .quadword (w.write s.memory (s.address 10 0) word)
      (s.address kRsp (BitVec.ofNat 32 operandOffset)) = value := by
  rw [address_cell]
  exact (read_write_of_apart word h.apart).trans h.operand

/-- The atomic store. -/
lemma completes_store
    (h : AtomicFrame .store w operandOffset auxiliaryOffset value desired m address s) :
    (atomicBlock .store w exchanging operandOffset auxiliaryOffset).Completes 0 s
      (AtomicDone s (atomicMachine w.bytes .store m address value desired)
        (atomicResult .store value (cellAt w.bytes m address))) := by
  have hoperand : (s.set 11 value).registers 11 = value := by
    rw [X86Program.State.set_registers, if_pos rfl]
  have hframe := h.set (r := 11) (.inr rfl) value
  -- behind the write, however it is made, the operand is loaded again
  have hend : ∀ t : X86Program.State, t.memory = w.write s.memory (s.address 10 0) value →
      (∀ r, r ≠ 11 → t.registers r = s.registers r) →
      (atomicBlock .store w exchanging operandOffset auxiliaryOffset).Completes 2 t
        (AtomicDone s (atomicMachine w.bytes .store m address value desired)
          (atomicResult .store value (cellAt w.bytes m address))) := by
    intro t hmemory hothers
    have hslot : t.address kRsp (BitVec.ofNat 32 operandOffset) =
        s.address kRsp (BitVec.ofNat 32 operandOffset) :=
      congrArg (· + _) (hothers 4 (by decide))
    have hreload : x86.step (operandItem 0 operandOffset).1
        (operandItem 0 operandOffset).2.length t = .next (t.set 0 value) := by
      refine congrArg (fun word => Effect.next (t.set 0 word)) ?_
      refine Eq.trans ?_ (h.operand_written value)
      rw [hmemory]
      exact congrArg _ hslot
    refine .next rfl hreload (.done rfl (atomicDone_of_written h rfl hmemory ?_ fun r hr hr' => ?_))
    · rw [X86Program.State.set_registers, if_pos rfl]
      rfl
    · rw [X86Program.State.set_registers, if_neg hr]
      exact hothers r hr'
  refine .next rfl (h.step_operand 11 _) ?_
  cases exchanging with
  | true =>
      refine .next rfl rfl (hend _ ?_ fun r hr => ?_)
      · exact congrArg (w.write s.memory (s.address 10 0)) hoperand
      · refine (X86Program.State.set_registers ..).trans ((if_neg hr).trans ?_)
        exact (X86Program.State.set_registers ..).trans (if_neg hr)
  | false =>
      refine .next rfl rfl (hend _ ?_ fun r hr => ?_)
      · exact congrArg (w.write s.memory (s.address 10 0)) hoperand
      · exact (X86Program.State.set_registers ..).trans (if_neg hr)

/-- The end of an exchange or an addition: the old value is moved to the result. -/
lemma completes_observed {b : Block x86} (items : List (X86Program.Instruction × CodeBytes))
    {k : Nat} (hitems : b.items = items ++ (zeroExtendItems w 11 ++ [(.move 0 11, moveRegister 0 11)]))
    (hk : k = items.length)
    (h : AtomicFrame o w operandOffset auxiliaryOffset value desired m address s) {word : Word}
    (hstore : o ≠ .store)
    (hword : word.setWidth (8 * w.bytes) = o.replace (cellAt w.bytes m address)
      (value.setWidth (8 * w.bytes)) (desired.setWidth (8 * w.bytes)))
    (hmemory : t.memory = w.write s.memory (s.address 10 0) word)
    (hobserved : t.registers 11 = w.merge value ((cellAt w.bytes m address).setWidth 64))
    (hothers : ∀ r, r ≠ 0 → r ≠ 11 → t.registers r = s.registers r) :
    b.Completes k t (AtomicDone s (atomicMachine w.bytes o m address value desired)
      (atomicResult o value (cellAt w.bytes m address))) := by
  have hextended : w.truncate (t.registers 11) = (cellAt w.bytes m address).setWidth 64 := by
    rw [hobserved, truncate_merge, truncate_cell]
  have hmove : b.items[items.length + (zeroExtendItems w 11).length]? =
      some (.move 0 11, moveRegister 0 11) := by
    rw [hitems, ← List.append_assoc, ← List.length_append, List.getElem?_concat_length]
  have hlength : items.length + (zeroExtendItems w 11).length + 1 = b.items.length := by
    rw [hitems]
    simp [Nat.add_assoc]
  subst hk
  refine completes_zeroExtend items _ hitems rfl (.next hmove rfl (.done hlength
    (atomicDone_of_written h hword hmemory ?_ fun r hr hr' => ?_)))
  · rw [X86Program.State.set_registers, if_pos rfl, X86Program.State.set_registers, if_pos rfl,
      hextended, atomicResult, if_neg hstore]
  · rw [X86Program.State.set_registers, if_neg hr, X86Program.State.set_registers, if_neg hr']
    exact hothers r hr hr'

/-- The atomic exchange. -/
lemma completes_exchange
    (h : AtomicFrame .exchange w operandOffset auxiliaryOffset value desired m address s) :
    (atomicBlock .exchange w exchanging operandOffset auxiliaryOffset).Completes 0 s
      (AtomicDone s (atomicMachine w.bytes .exchange m address value desired)
        (atomicResult .exchange value (cellAt w.bytes m address))) := by
  have hoperand : (s.set 11 value).registers 11 = value := by
    rw [X86Program.State.set_registers, if_pos rfl]
  have hobserved := (h.set (r := 11) (.inr rfl) value).observed
  refine .next rfl (h.step_operand 11 _) (.next rfl rfl (completes_observed
    [operandItem 11 operandOffset, (.exchange w 11 10 0, atomicExchange 11 10 w.bytes)]
    rfl rfl h (by decide) rfl ?_ ?_ fun r hr hr' => ?_))
  · exact congrArg (w.write s.memory (s.address 10 0)) hoperand
  · refine (X86Program.State.set_registers ..).trans ((if_pos rfl).trans ?_)
    exact congrArg₂ w.merge hoperand hobserved
  · refine (X86Program.State.set_registers ..).trans ((if_neg hr').trans ?_)
    exact (X86Program.State.set_registers ..).trans (if_neg hr')

/-- The atomic addition. -/
lemma completes_fetchAdd
    (h : AtomicFrame .fetchAdd w operandOffset auxiliaryOffset value desired m address s) :
    (atomicBlock .fetchAdd w exchanging operandOffset auxiliaryOffset).Completes 0 s
      (AtomicDone s (atomicMachine w.bytes .fetchAdd m address value desired)
        (atomicResult .fetchAdd value (cellAt w.bytes m address))) := by
  have hoperand : (s.set 11 value).registers 11 = value := by
    rw [X86Program.State.set_registers, if_pos rfl]
  have hobserved := (h.set (r := 11) (.inr rfl) value).observed
  have hbits := bytes_le w
  have hsum : ((cellAt w.bytes m address).setWidth 64 + value).setWidth (8 * w.bytes) =
      cellAt w.bytes m address + value.setWidth (8 * w.bytes) := by
    rw [BitVec.setWidth_add _ _ hbits, setWidth_setWidth_cell (by omega)]
  refine .next rfl (h.step_operand 11 _) (.next rfl rfl (completes_observed
    [operandItem 11 operandOffset, (.exchangeAdd w 11 10 0, atomicFetchAdd 11 10 w.bytes)]
    rfl rfl h (by decide) hsum ?_ ?_ fun r hr hr' => ?_))
  · exact congrArg (w.write s.memory (s.address 10 0)) (congrArg₂ (· + ·) hobserved hoperand)
  · refine (X86Program.State.set_registers ..).trans ((if_pos rfl).trans ?_)
    exact congrArg₂ w.merge hoperand hobserved
  · refine (X86Program.State.set_registers ..).trans ((if_neg hr').trans ?_)
    exact (X86Program.State.set_registers ..).trans (if_neg hr')

/-- A state behind a compare-exchange of a zero-extended word: it has written if the word was that
of the cell, and the result register holds the word of the cell in any case. -/
structure CompareExchanged (w : Width) (word : Word) (s s' : X86Program.State) : Prop where
  result : s'.registers 0 = word
  others : ∀ r, r ≠ 0 → s'.registers r = s.registers r
  flag : Condition.holds s' .notEqual = decide (s.registers 0 ≠ word)
  memory : s'.memory =
    if s.registers 0 = word then w.write s.memory (s.address 10 0) (s.registers 11) else s.memory

/-- What the locked compare-exchange leaves. -/
lemma AtomicFrame.compareExchanged
    (h : AtomicFrame o w operandOffset auxiliaryOffset value desired m address s)
    (hextended : w.truncate (s.registers 0) = s.registers 0) :
    CompareExchanged w ((cellAt w.bytes m address).setWidth 64) s
      (X86Program.compareExchange w 11 (s.address 10 0) s) := by
  have hcell := truncate_cell w (cellAt w.bytes m address)
  have hflag := holds_notEqual_compare w s (s.registers 0)
    ((cellAt w.bytes m address).setWidth 64)
  rw [hextended, hcell] at hflag
  unfold X86Program.compareExchange
  rw [h.observed, hextended]
  by_cases hequal : s.registers 0 = (cellAt w.bytes m address).setWidth 64
  · rw [if_pos hequal]
    refine ⟨hequal, fun _ _ => rfl, ?_, (if_pos hequal).symm⟩
    refine hflag.trans ?_
    simp [hequal]
  · rw [if_neg hequal]
    refine ⟨?_, fun r hr => ?_, ?_, (if_neg hequal).symm⟩
    · refine (X86Program.State.set_registers ..).trans ((if_pos rfl).trans ?_)
      exact (merge_of_truncated w _ _ hextended).trans hcell
    · exact (X86Program.State.set_registers ..).trans (if_neg hr)
    · refine hflag.trans ?_
      simp [hequal]

/-- The atomic compare-exchange. -/
lemma completes_compareExchange
    (h : AtomicFrame .compareExchange w operandOffset auxiliaryOffset value desired m address s) :
    (atomicBlock .compareExchange w exchanging operandOffset auxiliaryOffset).Completes 0 s
      (AtomicDone s (atomicMachine w.bytes .compareExchange m address value desired)
        (atomicResult .compareExchange value (cellAt w.bytes m address))) := by
  let s₁ := s.set 0 value
  let s₂ := s₁.set 0 (w.truncate (s₁.registers 0))
  let s₃ := s₂.set 11 desired
  let s₄ := X86Program.compareExchange w 11 (s₃.address 10 0) s₃
  have hframe : AtomicFrame .compareExchange w operandOffset auxiliaryOffset value desired m
      address s₃ := ((h.set (.inl rfl) _).set (.inl rfl) _).set (.inr rfl) _
  have hexpected : s₃.registers 0 = w.truncate value := by
    rw [X86Program.State.set_registers, if_neg (by decide), X86Program.State.set_registers,
      if_pos rfl, X86Program.State.set_registers, if_pos rfl]
  have hdesired : s₃.registers 11 = desired := by
    rw [X86Program.State.set_registers, if_pos rfl]
  have hothers : ∀ r, r ≠ 0 → r ≠ 11 → s₃.registers r = s.registers r := by
    intro r hr hr'
    rw [X86Program.State.set_registers, if_neg hr', X86Program.State.set_registers, if_neg hr,
      X86Program.State.set_registers, if_neg hr]
  have hexchanged : CompareExchanged w ((cellAt w.bytes m address).setWidth 64) s₃ s₄ :=
    hframe.compareExchanged (by rw [hexpected, truncate_truncate])
  have hauxiliary : x86.step (operandItem 11 auxiliaryOffset).1
      (operandItem 11 auxiliaryOffset).2.length s₂ = .next s₃ :=
    congrArg (fun word => Effect.next (s₂.set 11 word)) (h.auxiliary rfl)
  have hmatch : w.truncate value = (cellAt w.bytes m address).setWidth 64 ↔
      cellAt w.bytes m address = value.setWidth (8 * w.bytes) := by
    rw [← truncate_cell, truncate_eq_iff, setWidth_setWidth_cell (by have := bytes_le w; omega),
      eq_comm]
  have hdone : AtomicDone s (atomicMachine w.bytes .compareExchange m address value desired)
      (atomicResult .compareExchange value (cellAt w.bytes m address))
      (s₄.set 0 (w.truncate (s₄.registers 0))) := by
    have hresult : (s₄.set 0 (w.truncate (s₄.registers 0))).registers 0 =
        (cellAt w.bytes m address).setWidth 64 := by
      rw [X86Program.State.set_registers, if_pos rfl, hexchanged.result, truncate_cell]
    have hkept : ∀ r, r ≠ 0 → r ≠ 11 →
        (s₄.set 0 (w.truncate (s₄.registers 0))).registers r = s.registers r := by
      intro r hr hr'
      rw [X86Program.State.set_registers, if_neg hr, hexchanged.others r hr, hothers r hr hr']
    have hmemory := hexchanged.memory
    rw [hexpected, hdesired] at hmemory
    by_cases hequal : cellAt w.bytes m address = value.setWidth (8 * w.bytes)
    · rw [if_pos (hmatch.mpr hequal)] at hmemory
      exact atomicDone_of_written h (if_pos hequal).symm hmemory hresult hkept
    · rw [if_neg (hmatch.not.mpr hequal)] at hmemory
      exact atomicDone_of_kept h (if_neg hequal) hmemory hresult hkept
  let before := operandItem 0 operandOffset :: (zeroExtendItems w 0 ++
    [operandItem 11 auxiliaryOffset,
     (.compareExchange w 11 10 0, atomicCompareExchange 11 10 w.bytes)])
  have hitem : (atomicBlock .compareExchange w exchanging operandOffset auxiliaryOffset).items[
      0 + 1 + (zeroExtendItems w 0).length + 1]? =
        some (.compareExchange w 11 10 0, atomicCompareExchange 11 10 w.bytes) := by
    cases w <;> rfl
  refine .next rfl (h.step_operand 0 _) (completes_zeroExtend [operandItem 0 operandOffset] _ rfl rfl
    (.next ?_ hauxiliary (.next hitem rfl (completes_zeroExtend before [] ?_ ?_ (.done ?_ hdone)))))
  all_goals cases w <;> rfl

section bitwise

variable (hbitwise : o = .fetchAnd ∨ o = .fetchOr ∨ o = .fetchXor)

include hbitwise

omit hbitwise in
lemma binary_memory (s : X86Program.State) (rhs : Word) :
    (X86Program.binary (bitwiseOpcode o) 11 rhs s).memory = s.memory := by
  cases o <;> rfl

omit hbitwise in
lemma binary_registers (s : X86Program.State) (rhs : Word) {r : Register} (hr : r ≠ 11) :
    (X86Program.binary (bitwiseOpcode o) 11 rhs s).registers r = s.registers r := by
  cases o <;> exact (X86Program.State.set_registers ..).trans (if_neg hr)

/-- The word that is stored, over the observed one. -/
lemma setWidth_binary (s : X86Program.State) (rhs : Word) {k : Nat} (other : BitVec k) :
    ((X86Program.binary (bitwiseOpcode o) 11 rhs s).registers 11).setWidth k =
      o.replace (rhs.setWidth k) ((s.registers 11).setWidth k) other := by
  rcases hbitwise with rfl | rfl | rfl
  · have hand := X86Program.State.set_registers s 11 11 (s.registers 11 &&& rhs)
    rw [if_pos rfl] at hand
    exact (congrArg (BitVec.setWidth k) hand).trans
      (BitVec.setWidth_and.trans (BitVec.and_comm ..))
  · have hor := X86Program.State.set_registers s 11 11 (s.registers 11 ||| rhs)
    rw [if_pos rfl] at hor
    exact (congrArg (BitVec.setWidth k) hor).trans (BitVec.setWidth_or.trans (BitVec.or_comm ..))
  · have hxor := X86Program.State.set_registers s 11 11 (s.registers 11 ^^^ rhs)
    rw [if_pos rfl] at hxor
    exact (congrArg (BitVec.setWidth k) hxor).trans
      (BitVec.setWidth_xor.trans (BitVec.xor_comm ..))

omit hbitwise in
/-- What happens up to the branch. -/
lemma exchanged_of_frame
    (h : AtomicFrame o w operandOffset auxiliaryOffset value desired m address s)
    (hextended : w.truncate (s.registers 0) = s.registers 0) :
    CompareExchanged w ((cellAt w.bytes m address).setWidth 64)
      (X86Program.binary (bitwiseOpcode o) 11 (s.registers 0) (s.set 11 value))
      (X86Program.compareExchange w 11 (s.address 10 0)
        (X86Program.binary (bitwiseOpcode o) 11 (s.registers 0) (s.set 11 value))) := by
  let t := X86Program.binary (bitwiseOpcode o) 11 (s.registers 0) (s.set 11 value)
  have hkept : ∀ r, r ≠ 11 → t.registers r = s.registers r := fun r hr =>
    (binary_registers _ _ hr).trans ((X86Program.State.set_registers ..).trans (if_neg hr))
  have hframe : AtomicFrame o w operandOffset auxiliaryOffset value desired m address t :=
    h.congr (binary_memory _ _) (hkept 10 (by decide)) (hkept 4 (by decide))
  have haddress : t.address 10 0 = s.address 10 0 := by
    rw [address_cell, address_cell, hkept 10 (by decide)]
  have hsame : w.truncate (t.registers 0) = t.registers 0 := by
    rw [hkept 0 (by decide), hextended]
  have hexchanged := hframe.compareExchanged hsame
  rw [haddress] at hexchanged
  exact hexchanged

/-- A bitwise update is its loop. -/
lemma items_bitwise :
    (atomicBlock o w exchanging operandOffset auxiliaryOffset).items =
      bitwiseItems o w operandOffset := by
  rcases hbitwise with rfl | rfl | rfl <;> rfl

/-- The branch of the loop leads back to the load of the operand. -/
lemma offset_retry :
    ((atomicBlock o w exchanging operandOffset auxiliaryOffset).offset 4 : Int) +
      ((6 : Nat) + (retryDisplacement w).toInt) =
        (atomicBlock o w exchanging operandOffset auxiliaryOffset).offset 1 := by
  have hfourth : (atomicBlock o w exchanging operandOffset auxiliaryOffset).offset 4 =
      (loadUnsigned 0 10 0 w.bytes).length + (8 + (3 + (atomicCompareExchange 11 10 w.bytes).length)) := by
    have hload : (operandItem 11 operandOffset).2.length = 8 := rfl
    have hbinary : (binaryBytes (bitwiseByte o) 11 0).length = 3 := rfl
    rw [Block.offset, items_bitwise hbitwise]
    simp only [bitwiseItems, List.take_succ_cons, List.take_zero, List.flatMap_cons,
      List.flatMap_nil, List.append_nil, List.length_append, hload, hbinary]
  have hfirst : (atomicBlock o w exchanging operandOffset auxiliaryOffset).offset 1 =
      (loadUnsigned 0 10 0 w.bytes).length := by
    rw [Block.offset, items_bitwise hbitwise]
    simp [bitwiseItems]
  have hlength : ((atomicCompareExchange 11 10 w.bytes).length : Int) + 17 =
      -(retryDisplacement w).toInt := by
    cases w <;> rfl
  omega

/-- One round of the loop, from the load of the operand to the branch. -/
lemma completes_round
    (h : AtomicFrame o w operandOffset auxiliaryOffset value desired m address s)
    (hextended : w.truncate (s.registers 0) = s.registers 0) {Q : X86Program.State → Prop}
    (hpassed : ∀ t, AtomicDone s (atomicMachine w.bytes o m address value desired)
      (atomicResult o value (cellAt w.bytes m address)) t → Q t)
    (hretried : s.registers 0 ≠ (cellAt w.bytes m address).setWidth 64 → ∀ t,
      t.registers 0 = (cellAt w.bytes m address).setWidth 64 → t.memory = s.memory →
      (∀ r, r ≠ 0 → r ≠ 11 → t.registers r = s.registers r) →
      (atomicBlock o w exchanging operandOffset auxiliaryOffset).Completes 1 t Q) :
    (atomicBlock o w exchanging operandOffset auxiliaryOffset).Completes 1 s Q := by
  have hitems : (atomicBlock o w exchanging operandOffset auxiliaryOffset).items =
      bitwiseItems o w operandOffset := items_bitwise hbitwise
  have hexchanged := exchanged_of_frame h hextended
  have hoperand : (s.set 11 value).registers 11 = value := by
    rw [X86Program.State.set_registers, if_pos rfl]
  let t₁ := X86Program.binary (bitwiseOpcode o) 11 (s.registers 0) (s.set 11 value)
  let t₂ := X86Program.compareExchange w 11 (s.address 10 0) t₁
  have hkept : ∀ r, r ≠ 11 → t₁.registers r = s.registers r := fun r hr =>
    (binary_registers _ _ hr).trans ((X86Program.State.set_registers ..).trans (if_neg hr))
  have haddress : t₁.address 10 0 = s.address 10 0 := by
    rw [address_cell, address_cell, hkept 10 (by decide)]
  have hcompare : x86.step (.compareExchange w 11 10 0)
      (atomicCompareExchange 11 10 w.bytes).length t₁ = .next t₂ :=
    congrArg (fun a => Effect.next (X86Program.compareExchange w 11 a t₁)) haddress
  have hothers : ∀ r, r ≠ 0 → r ≠ 11 → t₂.registers r = s.registers r := fun r hr hr' =>
    (hexchanged.others r hr).trans (hkept r hr')
  have hflag : Condition.holds t₂ .notEqual =
      decide (s.registers 0 ≠ (cellAt w.bytes m address).setWidth 64) := by
    rw [hexchanged.flag, hkept 0 (by decide)]
  have hmemory := hexchanged.memory
  rw [hkept 0 (by decide), haddress, binary_memory] at hmemory
  refine .next (by rw [hitems]; rfl) (h.step_operand 11 _) (.next (by rw [hitems]; rfl) rfl
    (.next (by rw [hitems]; rfl) hcompare (completes_branch (by rw [hitems]; rfl)
      (offset_retry hbitwise) (fun htaken => ?_) fun hfell => ?_)))
  · rw [hflag, decide_eq_true_iff] at htaken
    rw [if_neg htaken] at hmemory
    exact hretried htaken _ hexchanged.result hmemory hothers
  · rw [hflag, decide_eq_false_iff_not, not_not] at hfell
    rw [if_pos hfell] at hmemory
    refine .done (by rw [hitems]; rfl) (hpassed _ (atomicDone_of_written h ?_ hmemory ?_ hothers))
    · have hbits := bytes_le w
      rw [setWidth_binary hbitwise _ _ (desired.setWidth (8 * w.bytes)), hoperand, hfell,
        setWidth_setWidth_cell (by omega)]
    · have hstore : o ≠ .store := by rcases hbitwise with rfl | rfl | rfl <;> decide
      rw [atomicResult, if_neg hstore]
      exact hexchanged.result

/-- **The retry loop.** From any zero-extended word in the result register, whether it was loaded
or left there by a failed compare-exchange, the loop ends with the operation done once. -/
lemma completes_retry
    (h : AtomicFrame o w operandOffset auxiliaryOffset value desired m address s)
    (hextended : w.truncate (s.registers 0) = s.registers 0) :
    (atomicBlock o w exchanging operandOffset auxiliaryOffset).Completes 1 s
      (AtomicDone s (atomicMachine w.bytes o m address value desired)
        (atomicResult o value (cellAt w.bytes m address))) := by
  refine completes_round hbitwise h hextended (fun _ hdone => hdone) fun _ t hresult hmemory
    hothers => ?_
  -- the word of a failed attempt is the one in the cell, so the second succeeds
  have hframe : AtomicFrame o w operandOffset auxiliaryOffset value desired m address t :=
    h.congr hmemory (hothers 10 (by decide) (by decide)) (hothers 4 (by decide) (by decide))
  refine completes_round hbitwise hframe (by rw [hresult, truncate_cell]) (fun t' hdone => ?_)
    fun hne => absurd hresult hne
  exact ⟨hdone.result, hdone.memory, fun r hr hr' =>
    (hdone.others r hr hr').trans (hothers r hr hr')⟩

/-- The atomic bitwise updates. -/
lemma completes_bitwise
    (h : AtomicFrame o w operandOffset auxiliaryOffset value desired m address s) :
    (atomicBlock o w exchanging operandOffset auxiliaryOffset).Completes 0 s
      (AtomicDone s (atomicMachine w.bytes o m address value desired)
        (atomicResult o value (cellAt w.bytes m address))) := by
  have hitem : (atomicBlock o w exchanging operandOffset auxiliaryOffset).items[0]? =
      some (.load w 0 10 0, loadUnsigned 0 10 0 w.bytes) := by
    rw [items_bitwise hbitwise]
    rfl
  have hloaded : (s.set 0 ((cellAt w.bytes m address).setWidth 64)).registers 0 =
      (cellAt w.bytes m address).setWidth 64 := by
    rw [X86Program.State.set_registers, if_pos rfl]
  have hframe := h.set (r := 0) (.inl rfl) ((cellAt w.bytes m address).setWidth 64)
  refine .next hitem (h.step_load _) ((completes_retry hbitwise hframe ?_).weaken fun t hdone => ?_)
  · rw [hloaded, truncate_cell]
  · exact ⟨hdone.result, hdone.memory, fun r hr hr' => (hdone.others r hr hr').trans
      ((X86Program.State.set_registers ..).trans (if_neg hr))⟩

end bitwise

/-- The instructions of every operation do the operation on the cell. -/
lemma completes_atomic
    (h : AtomicFrame o w operandOffset auxiliaryOffset value desired m address s) :
    (atomicBlock o w exchanging operandOffset auxiliaryOffset).Completes 0 s
      (AtomicDone s (atomicMachine w.bytes o m address value desired)
        (atomicResult o value (cellAt w.bytes m address))) := by
  cases o with
  | load => exact completes_load h
  | store => exact completes_store h
  | exchange => exact completes_exchange h
  | compareExchange => exact completes_compareExchange h
  | fetchAdd => exact completes_fetchAdd h
  | fetchAnd => exact completes_bitwise (.inl rfl) h
  | fetchOr => exact completes_bitwise (.inr (.inl rfl)) h
  | fetchXor => exact completes_bitwise (.inr (.inr rfl)) h

end follow

/-- **Atomic lowering is exact**: the code that is emitted behind any code runs to its end, does
the operation on the cell and changes no register but the two it works with. -/
lemma lowerAtomic_exact (o : AtomicOpcode) {access : AtomicAccessDescriptor} {width : Nat}
    (hnarrow : access.memory.width ≠ .k128) (hwidth : width = memoryWidthBytes access.memory.width)
    {operandOffset auxiliaryOffset : Nat} {value desired : Word} {m : Machine} {address : Nat}
    (hfits : address + width ≤ 2 ^ 64) {s : X86Program.State}
    (h : AtomicOperands o width operandOffset auxiliaryOffset value desired m address s)
    (front back : CodeBytes) :
    ∃ code, (lowerAtomicOperation o access operandOffset auxiliaryOffset).run front =
        (.ok (), front ++ code) ∧
      ∃ n s', x86.run (front ++ code ++ back) n (front.length, s) =
          some (front.length + code.length, s') ∧
        AtomicDone s (atomicMachine width o m address value desired)
          (atomicResult o value (cellAt width m address)) s' := by
  have hbytes : width = (operandWidth access.memory.width).bytes := by
    rw [hwidth]
    cases hcase : access.memory.width <;> first | rfl | exact absurd hcase hnarrow
  subst hbytes
  exact ⟨_, run_lowerAtomicOperation o hnarrow operandOffset auxiliaryOffset front,
    completes_atomic ⟨h, hfits⟩ front back⟩

end UniJit.Jit.X86
