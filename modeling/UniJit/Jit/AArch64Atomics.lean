import UniJit.Ir.Instruction
import UniJit.Jit.AArch64IntegerLowering
import UniJit.Jit.ExclusiveAtomics
import UniJit.Lib.AArch64Atomics

/-!
# Atomic operations on AArch64

The lowering of an atomic operation, once the address of the cell is in its register and the
operands are in theirs. Without the atomic instructions of the system extensions it retries an
exclusive load and store sixteen times and then calls the fallback, for which it has saved the live
registers and the operands before the loop.

`items` is what the emitter leaves behind (`run_emitAtomicOperation`), and `completes_items` follows
it for every interference.
-/

namespace UniJit.Jit.AArch64

open UniJit.Ir hiding Instruction
open UniJit.Lib UniJit.Lib.AArch64Atomics UniJit.Lib.CallMachine UniJit.Lib.Sequences

/-! ## Registers -/

/-- The register of the execution context. -/
def kContextArgumentRegister : Register := 1
/-- The register of the address. -/
def kAtomicAddressRegister : Register := 2
/-- The register of the operand. -/
def kAtomicOperandRegister : Register := 3
/-- The register of the desired word. -/
def kAtomicDesiredRegister : Register := 4
/-- The register of the store's status. -/
def kAtomicStatusRegister : Register := 5
/-- The register that counts the attempts. -/
def kAtomicRetryRegister : Register := 6

/-- The registers that floats and vectors are allocated to. -/
def kFloatAllocationRegisters : List Register :=
  [0, 1, 2, 3, 4, 5, 6, 7, 16, 17, 18, 19, 20, 21, 22, 23, 24, 25, 26, 27, 28, 29]

namespace Atomics

/-- A sequence of instructions. -/
abbrev Code := List Instruction

/-! ## Emitters

Loads and stores of the frame have the stack pointer as their base. -/

/-- Emits a move. -/
def moveRegister (destination source : Register) : Assembly Instruction Unit :=
  emit (.move destination source)

/-- Half 0 is moved, zero or not, and the later halves that are not zero are inserted. -/
def moveImmediate (destination : Register) (immediate : Word) : Assembly Instruction Unit := do
  let emitted ← [0, 1, 2, 3].foldlM (fun emitted half => do
    let value : BitVec 16 := (immediate >>> (half * 16)).setWidth 16
    if value = 0 ∧ emitted = true then pure emitted
    else do
      emit (if emitted then .moveKeep destination half value else .moveZero destination half value)
      pure true) false
  if emitted = false then emit (.moveZero destination 0 0)

/-- Emits a load from the frame. -/
def load (destination : Register) (byteOffset : Nat) : Assembly Instruction Unit :=
  emit (.load (.word destination (byteOffset / 8)))

/-- Emits a store to the frame. -/
def store (source : Register) (byteOffset : Nat) : Assembly Instruction Unit :=
  emit (.store (.word source (byteOffset / 8)))

/-- Emits an extension from a width. -/
def zeroExtend (destination source : Register) (width : Nat) : Assembly Instruction Unit :=
  if width = 8 then
    if destination ≠ source then moveRegister destination source else pure ()
  else emit (.zeroExtend width destination source)

/-- Emits the address of a place in the frame. -/
def address (destination : Register) (byteOffset : Nat) : Assembly Instruction Unit :=
  emit (.frameAddress destination byteOffset)

/-- A branch without its displacement, and where it is. -/
def branchWith (instruction : Int → Instruction) : Assembly Instruction Nat := do
  let offset ← size
  emit (instruction 0)
  pure offset

/-- Emits a branch to be patched. -/
def branch : Assembly Instruction Nat := branchWith .branch

/-- Emits a branch on zero to be patched. -/
def branchZero (source : Register) : Assembly Instruction Nat := branchWith (.branchZero source)

/-- Emits a branch on nonzero to be patched. -/
def branchNonzero (source : Register) : Assembly Instruction Nat := branchWith (.branchNonzero source)

/-- Emits a branch on a difference to be patched. -/
def branchNotEqual : Assembly Instruction Nat := branchWith .branchNotEqual

/-- Sets the target of a conditional branch. -/
def patchConditionBranch (offset target : Nat) : Assembly Instruction (Except Status Unit) :=
  patchWithin "AArch64 conditional branch exceeds its encoding range" (-2 ^ 18) (2 ^ 18 - 1)
    .branchNotEqual offset target

/-- Sets the target of a branch on nonzero. -/
def patchNonzeroBranch (offset target : Nat) (source : Register) :
    Assembly Instruction (Except Status Unit) :=
  patchWithin "AArch64 conditional branch exceeds its encoding range" (-2 ^ 18) (2 ^ 18 - 1)
    (.branchNonzero source) offset target

/-- Sets the target of a branch. -/
def patchBranch (offset target : Nat) : Assembly Instruction (Except Status Unit) :=
  patchWithin "AArch64 branch exceeds its encoding range" (-2 ^ 25) (2 ^ 25 - 1) .branch offset
    target

/-- Sets the target of a branch on zero. -/
def patchZeroBranch (offset target : Nat) (source : Register) :
    Assembly Instruction (Except Status Unit) :=
  patchWithin "AArch64 safepoint branch exceeds its encoding range" (-2 ^ 18) (2 ^ 18 - 1)
    (.branchZero source) offset target

/-! ## The sequence -/

/-- What is stored into the cell, from the loaded value and the operand. -/
def computeItem : AtomicOpcode → Code
  | .exchange => [.move kAtomicDesiredRegister kAtomicOperandRegister]
  | .fetchAdd => [.add kAtomicDesiredRegister kReturnRegister kAtomicOperandRegister]
  | .fetchAnd => [.and kAtomicDesiredRegister kReturnRegister kAtomicOperandRegister]
  | .fetchOr => [.or kAtomicDesiredRegister kReturnRegister kAtomicOperandRegister]
  | .fetchXor => [.exclusiveOr kAtomicDesiredRegister kReturnRegister kAtomicOperandRegister]
  | _ => []

/-- The single-instruction update of an operation. -/
def updateKind : AtomicOpcode → UpdateKind
  | .exchange => .swap
  | .fetchAnd => .clear
  | .fetchOr => .set
  | .fetchXor => .exclusiveOr
  | _ => .add

/-- The atomic instructions of the system extensions. -/
def emitLse (operation : AtomicOpcode) (width : Nat) (acquire release : Bool) :
    Assembly Instruction Unit := do
  if operation = .compareExchange then
    emit (.compareAndSwap width acquire release kAtomicOperandRegister kAtomicDesiredRegister
      kAtomicAddressRegister)
    moveRegister kReturnRegister kAtomicOperandRegister
  else
    if operation = .fetchAnd then emit (.not kAtomicOperandRegister kAtomicOperandRegister)
    emit (.update (updateKind operation) width acquire release kReturnRegister
      kAtomicOperandRegister kAtomicAddressRegister)

/-- The arguments of the fallback, in the frame. -/
def emitArguments (operation : AtomicOpcode) (width callArgumentBase : Nat) :
    Assembly Instruction Unit := do
  store kAtomicAddressRegister (callArgumentBase * 8)
  moveImmediate kScratch0 (fallbackCode operation)
  store kScratch0 ((callArgumentBase + 1) * 8)
  moveImmediate kScratch0 (BitVec.ofNat 64 width)
  store kScratch0 ((callArgumentBase + 2) * 8)
  store kAtomicOperandRegister ((callArgumentBase + 3) * 8)
  store kAtomicDesiredRegister ((callArgumentBase + 4) * 8)

/-- The call of the fallback, and the live registers after it. -/
def emitFallback (helper : Word) (callArgumentBase atomicResultSlot : Nat)
    (restoreLive : Assembly Instruction Unit) : Assembly Instruction Unit := do
  address kReturnRegister (callArgumentBase * 8)
  moveImmediate kContextArgumentRegister (BitVec.ofNat 64 kAtomicFallbackArgumentCount)
  moveImmediate kScratch0 helper
  emit (.callRegister kScratch0)
  store kReturnRegister (atomicResultSlot * 8)
  restoreLive
  load kReturnRegister (atomicResultSlot * 8)

/-- The loop and what follows it. A compare-exchange has a fourth branch, for the value that does
not match. -/
def emitLoop (operation : AtomicOpcode) (width : Nat) (acquire release : Bool) (helper : Word)
    (callArgumentBase atomicResultSlot : Nat) (restoreLive : Assembly Instruction Unit) :
    Assembly Instruction (Except Status Unit) := do
  let retry ← size
  emit (.loadExclusive width acquire kReturnRegister kAtomicAddressRegister)
  let compareFailed ←
    if operation = .compareExchange then do
      emit (.compare kReturnRegister kAtomicOperandRegister)
      branchNotEqual
    else pure 0
  emitAll (computeItem operation)
  emit (.storeExclusive width release kAtomicStatusRegister kAtomicDesiredRegister
    kAtomicAddressRegister)
  let succeeded ← branchZero kAtomicStatusRegister
  emit (.decrement kAtomicRetryRegister)
  let retryIfAvailable ← branchNonzero kAtomicRetryRegister
  emitFallback helper callArgumentBase atomicResultSlot restoreLive
  let fallbackCompleted ← branch
  let compareFailurePath ← size
  if operation = .compareExchange then emit .clearExclusive
  let completed ← size
  patchEach
    (patchZeroBranch succeeded completed kAtomicStatusRegister ::
      patchNonzeroBranch retryIfAvailable retry kAtomicRetryRegister ::
      patchBranch fallbackCompleted completed ::
      if operation = .compareExchange then [patchConditionBranch compareFailed compareFailurePath]
      else [])

/-- The expected value of a compare-exchange, cut down to the cell. -/
def extendExpected (operation : AtomicOpcode) (width : Nat) : Assembly Instruction Unit :=
  if operation = .compareExchange ∧ width < 8 then
    zeroExtend kAtomicOperandRegister kAtomicOperandRegister width
  else pure ()

/-- Emits an atomic operation. -/
def emitAtomicOperation (operation : AtomicOpcode) (access : AtomicAccessDescriptor)
    (useLseAtomics : Bool) (helper : Word) (callArgumentBase atomicResultSlot : Nat)
    (saveLive restoreLive : Assembly Instruction Unit) : Assembly Instruction (Except Status Unit) := do
  let width := memoryWidthBytes access.memory.width
  let acquire := accessAcquires operation access
  let release := atomicOrderHasRelease access.order
  if operation = .load then
    emit (.loadAtomic width acquire kReturnRegister kAtomicAddressRegister)
    pure (.ok ())
  else if operation = .store then
    emit (.storeAtomic width release kAtomicOperandRegister kAtomicAddressRegister)
    moveRegister kReturnRegister kAtomicOperandRegister
    pure (.ok ())
  else do
    extendExpected operation width
    if useLseAtomics then
      emitLse operation width acquire release
      pure (.ok ())
    else
      saveLive
      emitArguments operation width callArgumentBase
      moveImmediate kAtomicRetryRegister (BitVec.ofNat 64 kAtomicExclusiveAttempts)
      emitLoop operation width acquire release helper callArgumentBase atomicResultSlot restoreLive

/-! ## The instructions -/

/-- The insertion of a half, if it is not zero. -/
def keepItems (destination : Register) (immediate : Word) (half : Nat) : Code :=
  if (immediate >>> (half * 16)).setWidth 16 = 0#16 then []
  else [.moveKeep destination half ((immediate >>> (half * 16)).setWidth 16)]

/-- The moves of an immediate. -/
def moveImmediateItems (destination : Register) (immediate : Word) : Code :=
  .moveZero destination 0 (immediate.setWidth 16) ::
    (keepItems destination immediate 1 ++
      (keepItems destination immediate 2 ++ keepItems destination immediate 3))

/-- The stores of the call's arguments. -/
def argumentItems (operation : AtomicOpcode) (width callArgumentBase : Nat) : Code :=
  .store (.word 2 callArgumentBase) :: (moveImmediateItems 16 (fallbackCode operation) ++
    .store (.word 16 (callArgumentBase + 1)) :: (moveImmediateItems 16 (BitVec.ofNat 64 width) ++
      [.store (.word 16 (callArgumentBase + 2)), .store (.word 3 (callArgumentBase + 3)),
        .store (.word 4 (callArgumentBase + 4))]))

/-- The extension of the operand of a narrow compare-exchange. -/
def extendItems (operation : AtomicOpcode) (width : Nat) : Code :=
  if operation = .compareExchange ∧ width < 8 then [.zeroExtend width 3 3] else []

/-- Everything in front of the loop. -/
def setupItems (operation : AtomicOpcode) (width : Nat) (homes : List Home)
    (callArgumentBase : Nat) : Code :=
  extendItems operation width ++
    (homes.map .store ++ (argumentItems operation width callArgumentBase ++
      moveImmediateItems 6 (BitVec.ofNat 64 kAtomicExclusiveAttempts)))

/-- The loop, with `rest` instructions behind it. -/
def loopItems (operation : AtomicOpcode) (width : Nat) (acquire release : Bool) (rest : Nat) :
    Code :=
  if operation = .compareExchange then
    [.loadExclusive width acquire 0 2, .compare 0 3, .branchNotEqual (rest + 4),
      .storeExclusive width release 5 4 2, .branchZero 5 (rest + 3), .decrement 6,
      .branchNonzero 6 (-6)]
  else
    .loadExclusive width acquire 0 2 :: (computeItem operation ++
      [.storeExclusive width release 5 4 2, .branchZero 5 (rest + 3), .decrement 6,
        .branchNonzero 6 (-5)])

/-- The call of the helper. -/
def fallbackItems (helper : Word) (homes : List Home) (callArgumentBase atomicResultSlot : Nat) :
    Code :=
  .frameAddress 0 (callArgumentBase * 8) ::
    (moveImmediateItems 1 (BitVec.ofNat 64 kAtomicFallbackArgumentCount) ++
      (moveImmediateItems 16 helper ++
        ([.callRegister 16, .store (.word 0 atomicResultSlot)] ++
          (homes.map .load ++ [.load (.word 0 atomicResultSlot)]))))

/-- The end of the fallback, and where a failed comparison goes. -/
def endItems (operation : AtomicOpcode) : Code :=
  if operation = .compareExchange then [.branch 2, .clearExclusive] else [.branch 1]

/-- The whole sequence of an operation that retries. -/
def items (operation : AtomicOpcode) (width : Nat) (acquire release : Bool) (helper : Word)
    (homes : List Home) (callArgumentBase atomicResultSlot : Nat) : Code :=
  let fallback := fallbackItems helper homes callArgumentBase atomicResultSlot
  let ends := endItems operation
  setupItems operation width homes callArgumentBase ++
    (loopItems operation width acquire release (fallback.length + ends.length) ++
      (fallback ++ ends))

section emission

variable (code : Code)

/-- What moving an immediate emits. -/
lemma run_moveImmediate (destination : Register) (immediate : Word) :
    (moveImmediate destination immediate).run code =
      pure ((), code ++ moveImmediateItems destination immediate) := by
  simp only [moveImmediate, List.foldlM_cons, List.foldlM_nil, moveImmediateItems, keepItems]
  by_cases h1 : (immediate >>> 16).setWidth 16 = 0#16 <;>
    by_cases h2 : (immediate >>> 32).setWidth 16 = 0#16 <;>
    by_cases h3 : (immediate >>> 48).setWidth 16 = 0#16 <;>
    simp [h1, h2, h3, StateT.run_bind, run_emit]

/-- What storing the arguments emits. -/
lemma run_emitArguments (operation : AtomicOpcode) (width callArgumentBase : Nat) :
    (emitArguments operation width callArgumentBase).run code =
      pure ((), code ++ argumentItems operation width callArgumentBase) := by
  simp only [emitArguments, store, StateT.run_bind, run_emit, run_moveImmediate, pure_bind,
    Nat.mul_div_cancel _ (by decide : 0 < 8), List.append_assoc, argumentItems]
  rfl

variable (helper : Word) (homes : List Home) (callArgumentBase atomicResultSlot : Nat)

/-- What the fallback emits. -/
lemma run_emitFallback :
    (emitFallback helper callArgumentBase atomicResultSlot (emitAll (homes.map .load))).run code =
      pure ((), code ++ fallbackItems helper homes callArgumentBase atomicResultSlot) := by
  simp only [emitFallback, address, store, load, StateT.run_bind, run_emit, run_emitAll,
    run_moveImmediate, pure_bind, Nat.mul_div_cancel _ (by decide : 0 < 8), List.append_assoc,
    fallbackItems]
  rfl

/-- Every update but a compare-exchange is computed by one instruction. -/
lemma computeItem_singleton {operation : AtomicOpcode} (ho : Retries operation)
    (hcompare : operation ≠ .compareExchange) : ∃ i, computeItem operation = [i] := by
  cases operation with
  | load => exact absurd rfl ho.1
  | store => exact absurd rfl ho.2
  | compareExchange => exact absurd rfl hcompare
  | exchange => exact ⟨_, rfl⟩
  | fetchAdd => exact ⟨_, rfl⟩
  | fetchAnd => exact ⟨_, rfl⟩
  | fetchOr => exact ⟨_, rfl⟩
  | fetchXor => exact ⟨_, rfl⟩

/-- The emitter of the loop leaves the patched loop, the fallback and the end behind. -/
lemma run_emitLoop {operation : AtomicOpcode} {width : Nat} {acquire release : Bool}
    {code' : Code} (ho : Retries operation)
    (h : (emitLoop operation width acquire release helper callArgumentBase atomicResultSlot
      (emitAll (homes.map .load))).run code = pure (.ok (), code')) :
    code' = code ++
      (loopItems operation width acquire release
        ((fallbackItems helper homes callArgumentBase atomicResultSlot).length +
          (endItems operation).length) ++
        (fallbackItems helper homes callArgumentBase atomicResultSlot ++ endItems operation)) := by
  by_cases hcompare : operation = .compareExchange
  · subst hcompare
    simp only [emitLoop, StateT.run_bind, run_size, run_emit, pure_bind, if_true, branchNotEqual,
      branchWith, branchZero, branchNonzero, branch, computeItem, run_emitAll, run_emitFallback,
      StateT.run_pure, patchZeroBranch, patchNonzeroBranch, patchBranch, patchConditionBranch,
      List.append_nil] at h
    have hpatched := run_patchEach_nil
      (run_patchEach_cons (run_patchEach_cons (run_patchEach_cons (run_patchEach_cons h))))
    generalize fallbackItems helper homes callArgumentBase atomicResultSlot = fallback
      at hpatched ⊢
    simp only [List.append_assoc, List.cons_append, List.nil_append, List.length_append,
      List.length_cons, List.length_nil, zero_add, Nat.reduceAdd, Nat.cast_add, Nat.cast_ofNat,
      Nat.cast_one, add_sub_add_left_eq_sub, le_add_iff_nonneg_right, zero_le,
      List.set_append_right, add_tsub_cancel_left, List.set_cons_succ, List.set_cons_zero,
      sub_add_cancel_left, Int.reduceNeg, add_sub_add_right_eq_sub,
      Std.le_refl, tsub_self] at hpatched
    rw [hpatched]
    simp [loopItems, endItems, kReturnRegister, kAtomicAddressRegister, kAtomicOperandRegister,
      kAtomicStatusRegister, kAtomicDesiredRegister, kAtomicRetryRegister]
    constructor <;> omega
  · obtain ⟨compute, hcompute⟩ := computeItem_singleton ho hcompare
    simp only [emitLoop, StateT.run_bind, run_size, run_emit, pure_bind, hcompare, branchWith,
      branchZero, branchNonzero, branch, hcompute, run_emitAll, run_emitFallback, StateT.run_pure,
      patchZeroBranch, patchNonzeroBranch, patchBranch, if_false] at h
    have hpatched := run_patchEach_nil
      (run_patchEach_cons (run_patchEach_cons (run_patchEach_cons h)))
    generalize fallbackItems helper homes callArgumentBase atomicResultSlot = fallback
      at hpatched ⊢
    simp only [List.append_assoc, List.cons_append, List.nil_append, List.length_append,
      List.length_cons, List.length_nil, zero_add, Nat.reduceAdd, Nat.cast_add, Nat.cast_one,
      Nat.cast_ofNat, add_sub_add_left_eq_sub, le_add_iff_nonneg_right, zero_le,
      List.set_append_right, add_tsub_cancel_left, List.set_cons_succ, List.set_cons_zero,
      sub_add_cancel_left, Int.reduceNeg, Std.le_refl, tsub_self] at hpatched
    rw [hpatched]
    simp [loopItems, endItems, hcompare, hcompute, kReturnRegister, kAtomicAddressRegister,
      kAtomicStatusRegister, kAtomicDesiredRegister, kAtomicRetryRegister]
    omega

variable {operation : AtomicOpcode} {access : AtomicAccessDescriptor}

/-- **The emitter leaves the instructions behind.** -/
lemma run_emitAtomicOperation {code' : Code} (ho : Retries operation)
    (h : (emitAtomicOperation operation access false helper callArgumentBase atomicResultSlot
      (emitAll (homes.map .store)) (emitAll (homes.map .load))).run code = pure (.ok (), code')) :
    code' = code ++ items operation (memoryWidthBytes access.memory.width)
      (accessAcquires operation access) (atomicOrderHasRelease access.order) helper homes
      callArgumentBase atomicResultSlot := by
  have hextend : extendExpected operation (memoryWidthBytes access.memory.width) =
      emitAll (extendItems operation (memoryWidthBytes access.memory.width)) := by
    unfold extendExpected extendItems
    split_ifs with hnarrow
    · rw [zeroExtend, if_neg hnarrow.2.ne]
      rfl
    · rfl
  simp only [emitAtomicOperation, ho.1, ho.2, if_false, Bool.false_eq_true, StateT.run_bind,
    hextend, run_emitAll, run_emitArguments, run_moveImmediate, pure_bind] at h
  rw [run_emitLoop _ _ _ _ _ ho h]
  simp only [items, setupItems, kAtomicRetryRegister, List.append_assoc]

end emission

end Atomics

end UniJit.Jit.AArch64
