import UniJit.Ir.Instruction
import UniJit.Jit.ExclusiveAtomics
import UniJit.Jit.RiscVIntegerLowering
import UniJit.Lib.RiscVAtomics

/-!
# Atomic operations on RISC-V

The lowering of an atomic operation, once the address of the cell is in its register and the
operands are in theirs. Narrow cells are left to the fallback, exchanges and fetching operations of
words and half words are one instruction, and a compare-exchange retries a reserved load and a
conditional store sixteen times and then calls the fallback. The live registers and the operands are
saved behind the loop.

`items` is what the emitter leaves behind (`run_emitAtomicOperation`), and `completes_items` follows
it for every interference.
-/

namespace UniJit.Jit.RiscV

open UniJit.Ir hiding Instruction
open UniJit.Lib UniJit.Lib.SharedMemory UniJit.Lib.RiscVAtomics UniJit.Lib.CallMachine
  UniJit.Lib.Sequences UniJit.Runtime

/-! ## Registers -/

/-- The register of the execution context. -/
def kContextArgument : Register := 11
/-- The register of the address. -/
def kAtomicAddress : Register := 30
/-- The register of the operand. -/
def kAtomicOperand : Register := 31
/-- The register of the desired word. -/
def kAtomicDesired : Register := 29
/-- The register of the store's status. -/
def kAtomicStatus : Register := 6
/-- The register that counts the attempts. -/
def kAtomicRetry : Register := 7

/-- The registers that floats are allocated to. -/
def kFloatAllocationRegisters : List Register := [10, 11, 12, 13, 14, 15, 16, 17]

namespace Atomics

/-- A sequence of instructions. -/
abbrev Code := List Instruction

/-! ## Emitters

Loads and stores of the frame have the stack pointer as their base. -/

/-- Emits a move. -/
def moveRegister (destination source : Register) : Assembly Instruction Unit :=
  emit (.move destination source)

/-- A load from the literals behind the code. -/
def moveImmediate (destination : Register) (immediate : Word) : Assembly Instruction Unit := do
  emit (.upperAddress destination)
  emit (.loadLiteral destination immediate)

/-- Emits a load from the frame. -/
def load (destination : Register) (byteOffset : Nat) : Assembly Instruction Unit :=
  emit (.load (.word destination (byteOffset / 8)))

/-- Emits a store to the frame. -/
def store (source : Register) (byteOffset : Nat) : Assembly Instruction Unit :=
  emit (.store (.word source (byteOffset / 8)))

/-- Emits an extension from a width. -/
def zeroExtend (destination source : Register) (width : Nat) : Assembly Instruction Unit :=
  if width = 8 then
    if destination ≠ source then moveRegister destination source else pure ()
  else do
    emit (.shiftLeft destination source (64 - width * 8))
    emit (.shiftRight destination destination (64 - width * 8))

/-- Emits the address of a place in the frame. -/
def address (destination : Register) (byteOffset : Nat) : Assembly Instruction Unit :=
  emit (.frameAddress destination byteOffset)

/-- A branch without its displacement, and where it is. -/
def branchWith (instruction : Int → Instruction) : Assembly Instruction Nat := do
  let offset ← size
  emit (instruction 0)
  pure offset

/-- Emits a jump to be patched. -/
def branch : Assembly Instruction Nat := branchWith .branch

/-- Emits a branch on zero to be patched. -/
def branchZero (source : Register) : Assembly Instruction Nat := branchWith (.branchZero source)

/-- Emits a branch on nonzero to be patched. -/
def branchNonzero (source : Register) : Assembly Instruction Nat := branchWith (.branchNonzero source)

/-- Emits a branch on a difference to be patched. -/
def branchNotEqual (lhs rhs : Register) : Assembly Instruction Nat :=
  branchWith (.branchNotEqual lhs rhs)

/-- Sets the target of a branch on a difference. -/
def patchConditionalBranch (offset target : Nat) (rhs lhs : Register) :
    Assembly Instruction (Except Status Unit) :=
  patchWithin "RISC-V conditional branch exceeds its encoding range" (-1024) 1023
    (.branchNotEqual lhs rhs) offset target

/-- Sets the target of a branch on nonzero. -/
def patchNonzeroBranch (offset target : Nat) (source : Register) :
    Assembly Instruction (Except Status Unit) :=
  patchWithin "RISC-V conditional branch exceeds its encoding range" (-1024) 1023
    (.branchNonzero source) offset target

/-- Sets the target of a jump. -/
def patchBranch (offset target : Nat) : Assembly Instruction (Except Status Unit) :=
  patchWithin "RISC-V jump exceeds its encoding range" (-2 ^ 18) (2 ^ 18 - 1) .branch offset target

/-- Sets the target of a branch on zero. -/
def patchZeroBranch (offset target : Nat) (source : Register) :
    Assembly Instruction (Except Status Unit) :=
  patchWithin "RISC-V safepoint branch exceeds its encoding range" (-1024) 1023
    (.branchZero source) offset target

/-! ## The sequences -/

/-- Emits the call of the helper. -/
def emitAtomicHelperCall (operation : AtomicOpcode) (width : Nat) (helper : Word)
    (callArgumentBase atomicResultSlot : Nat) (saveLive restoreLive : Assembly Instruction Unit) :
    Assembly Instruction Unit := do
  saveLive
  store kAtomicAddress (callArgumentBase * 8)
  moveImmediate kScratch0 (fallbackCode operation)
  store kScratch0 ((callArgumentBase + 1) * 8)
  moveImmediate kScratch0 (BitVec.ofNat 64 width)
  store kScratch0 ((callArgumentBase + 2) * 8)
  store kAtomicOperand ((callArgumentBase + 3) * 8)
  store kAtomicDesired ((callArgumentBase + 4) * 8)
  address kArgumentAndReturn (callArgumentBase * 8)
  moveImmediate kContextArgument (BitVec.ofNat 64 kAtomicFallbackArgumentCount)
  moveImmediate kScratch0 helper
  emit (.callRegister kScratch0)
  store kArgumentAndReturn (atomicResultSlot * 8)
  restoreLive
  load kArgumentAndReturn (atomicResultSlot * 8)

/-- The single-instruction update of an operation. -/
def updateKind : AtomicOpcode → UpdateKind
  | .exchange => .swap
  | .fetchXor => .exclusiveOr
  | .fetchOr => .or
  | .fetchAnd => .and
  | _ => .add

/-- Emits a fence where one is needed. -/
def fenceIf (condition : Bool) : Assembly Instruction Unit :=
  if condition then emit .fence else pure ()

/-- Half words are zero-extended. -/
def zeroExtendHalf (register : Register) (width : Nat) : Assembly Instruction Unit :=
  if width = 4 then zeroExtend register register width else pure ()

/-- Emits an atomic operation. -/
def emitAtomicOperation (operation : AtomicOpcode) (access : AtomicAccessDescriptor)
    (helper : Word) (callArgumentBase atomicResultSlot : Nat)
    (saveLive restoreLive : Assembly Instruction Unit) : Assembly Instruction (Except Status Unit) := do
  let width := memoryWidthBytes access.memory.width
  let acquire := accessAcquires operation access
  let release := atomicOrderHasRelease access.order
  if width < 4 then
    emitAtomicHelperCall operation width helper callArgumentBase atomicResultSlot saveLive
      restoreLive
    pure (.ok ())
  else if operation = .load then
    fenceIf (access.order == .sequentiallyConsistent)
    emit (.loadUnsigned width kArgumentAndReturn kAtomicAddress)
    fenceIf acquire
    pure (.ok ())
  else if operation = .store then
    fenceIf release
    emit (.storeWidth width kAtomicOperand kAtomicAddress)
    fenceIf (access.order == .sequentiallyConsistent)
    moveRegister kArgumentAndReturn kAtomicOperand
    pure (.ok ())
  else if operation ≠ .compareExchange then
    emit (.update (updateKind operation) width acquire release kArgumentAndReturn kAtomicOperand
      kAtomicAddress)
    zeroExtendHalf kArgumentAndReturn width
    pure (.ok ())
  else do
    zeroExtendHalf kAtomicOperand width
    moveImmediate kAtomicRetry (BitVec.ofNat 64 kAtomicExclusiveAttempts)
    let retry ← size
    emit (.loadReserved width acquire kArgumentAndReturn kAtomicAddress)
    zeroExtendHalf kArgumentAndReturn width
    let compareFailed ← branchNotEqual kArgumentAndReturn kAtomicOperand
    emit (.storeConditional width release kAtomicStatus kAtomicDesired kAtomicAddress)
    let succeeded ← branchZero kAtomicStatus
    emit (.decrement kAtomicRetry)
    let retryIfAvailable ← branchNonzero kAtomicRetry
    emitAtomicHelperCall operation width helper callArgumentBase atomicResultSlot saveLive
      restoreLive
    let fallbackCompleted ← branch
    let completed ← size
    patchEach
      [patchZeroBranch succeeded completed kAtomicStatus,
        patchNonzeroBranch retryIfAvailable retry kAtomicRetry,
        patchBranch fallbackCompleted completed,
        patchConditionalBranch compareFailed completed kAtomicOperand kArgumentAndReturn]

/-! ## The instructions -/

/-- The pair that loads an immediate. -/
def moveImmediateItems (destination : Register) (immediate : Word) : Code :=
  [.upperAddress destination, .loadLiteral destination immediate]

/-- The extension of a half word. -/
def extendItems (register : Register) (width : Nat) : Code :=
  if width = 4 then [.shiftLeft register register 32, .shiftRight register register 32] else []

/-- The stores of the call's arguments. -/
def argumentItems (operation : AtomicOpcode) (width callArgumentBase : Nat) : Code :=
  .store (.word 30 callArgumentBase) :: (moveImmediateItems 6 (fallbackCode operation) ++
    .store (.word 6 (callArgumentBase + 1)) :: (moveImmediateItems 6 (BitVec.ofNat 64 width) ++
      [.store (.word 6 (callArgumentBase + 2)), .store (.word 31 (callArgumentBase + 3)),
        .store (.word 29 (callArgumentBase + 4))]))

/-- The call itself. -/
def callItems (helper : Word) (homes : List Home) (callArgumentBase atomicResultSlot : Nat) :
    Code :=
  .frameAddress 10 (callArgumentBase * 8) ::
    (moveImmediateItems 11 (BitVec.ofNat 64 kAtomicFallbackArgumentCount) ++
      (moveImmediateItems 6 helper ++
        ([.callRegister 6, .store (.word 10 atomicResultSlot)] ++
          (homes.map .load ++ [.load (.word 10 atomicResultSlot)]))))

/-- The call of the fallback, with everything around it. -/
def helperItems (operation : AtomicOpcode) (width : Nat) (helper : Word) (homes : List Home)
    (callArgumentBase atomicResultSlot : Nat) : Code :=
  homes.map .store ++ (argumentItems operation width callArgumentBase ++
    callItems helper homes callArgumentBase atomicResultSlot)

/-- The loop of a compare-exchange, with `rest` instructions behind it. -/
def loopItems (width : Nat) (acquire release : Bool) (rest : Nat) : Code :=
  .loadReserved width acquire 10 30 :: (extendItems 10 width ++
    [.branchNotEqual 10 31 (rest + 5), .storeConditional width release 6 29 30,
      .branchZero 6 (rest + 3), .decrement 7,
      .branchNonzero 7 (-(5 + (extendItems 10 width).length))])

/-- The whole sequence of an operation that retries. -/
def items (operation : AtomicOpcode) (width : Nat) (acquire release : Bool) (helper : Word)
    (homes : List Home) (callArgumentBase atomicResultSlot : Nat) : Code :=
  let fallback := helperItems operation width helper homes callArgumentBase atomicResultSlot
  if width < 4 then fallback
  else if operation ≠ .compareExchange then
    .update (updateKind operation) width acquire release 10 31 30 :: extendItems 10 width
  else
    extendItems 31 width ++ moveImmediateItems 7 (BitVec.ofNat 64 kAtomicExclusiveAttempts) ++
      (loopItems width acquire release (fallback.length + 1) ++ (fallback ++ [.branch 1]))

section emission

variable (code : Code)

/-- What moving an immediate emits. -/
lemma run_moveImmediate (destination : Register) (immediate : Word) :
    (moveImmediate destination immediate).run code =
      pure ((), code ++ moveImmediateItems destination immediate) := by
  simp only [moveImmediate, StateT.run_bind, run_emit, pure_bind, List.append_assoc]
  rfl

/-- What extending a half word emits. -/
lemma run_zeroExtendHalf (register : Register) (width : Nat) :
    (zeroExtendHalf register width).run code = pure ((), code ++ extendItems register width) := by
  unfold zeroExtendHalf extendItems
  split_ifs with hhalf
  · subst hhalf
    simp only [zeroExtend, if_neg (by decide : ¬ 4 = 8), StateT.run_bind, run_emit, pure_bind,
      List.append_assoc]
    rfl
  · rw [List.append_nil, StateT.run_pure]

variable (operation : AtomicOpcode) (width : Nat) (helper : Word) (homes : List Home)
  (callArgumentBase atomicResultSlot : Nat)

/-- What the call of the helper emits. -/
lemma run_emitAtomicHelperCall :
    (emitAtomicHelperCall operation width helper callArgumentBase atomicResultSlot
      (emitAll (homes.map .store)) (emitAll (homes.map .load))).run code =
      pure ((), code ++
        helperItems operation width helper homes callArgumentBase atomicResultSlot) := by
  simp only [emitAtomicHelperCall, address, store, load, StateT.run_bind, run_emit, run_emitAll,
    run_moveImmediate, pure_bind, Nat.mul_div_cancel _ (by decide : 0 < 8), List.append_assoc,
    helperItems, argumentItems, callItems]
  rfl

variable {operation : AtomicOpcode} {access : AtomicAccessDescriptor}

/-- **The emitter leaves the instructions behind.** -/
lemma run_emitAtomicOperation {code' : Code} (ho : Retries operation)
    (h : (emitAtomicOperation operation access helper callArgumentBase atomicResultSlot
      (emitAll (homes.map .store)) (emitAll (homes.map .load))).run code = pure (.ok (), code')) :
    code' = code ++ items operation (memoryWidthBytes access.memory.width)
      (accessAcquires operation access) (atomicOrderHasRelease access.order) helper homes
      callArgumentBase atomicResultSlot := by
  generalize hwidth : memoryWidthBytes access.memory.width = width
  unfold items
  split_ifs with hnarrow hcompare
  · simp only [emitAtomicOperation, hwidth, if_pos hnarrow, StateT.run_bind,
      run_emitAtomicHelperCall, pure_bind, StateT.run_pure] at h
    cases h
    rfl
  · simp only [emitAtomicOperation, hwidth, if_neg hnarrow, if_neg ho.1, if_neg ho.2, if_pos hcompare,
      StateT.run_bind, run_emit, run_zeroExtendHalf, pure_bind, StateT.run_pure] at h
    cases h
    rw [List.append_assoc]
    rfl
  · rw [not_not] at hcompare
    subst hcompare
    simp only [emitAtomicOperation, hwidth, if_neg hnarrow, reduceCtorEq, if_false, ne_eq,
      not_true_eq_false, StateT.run_bind, run_emit, run_size, run_zeroExtendHalf,
      run_moveImmediate, branchNotEqual, branchZero, branchNonzero, branch, branchWith,
      run_emitAtomicHelperCall, pure_bind, StateT.run_pure, patchZeroBranch, patchNonzeroBranch,
      patchBranch, patchConditionalBranch] at h
    generalize hfront : code ++ extendItems kAtomicOperand width ++
      moveImmediateItems kAtomicRetry (BitVec.ofNat 64 kAtomicExclusiveAttempts) = front at h
    have hpatched := run_patchEach_nil
      (run_patchEach_cons (run_patchEach_cons (run_patchEach_cons (run_patchEach_cons h))))
    generalize hloaded : front ++ [.loadReserved width (accessAcquires .compareExchange access)
      kArgumentAndReturn kAtomicAddress] ++ extendItems kArgumentAndReturn width = loaded
      at hpatched
    have hlength : loaded.length = front.length + 1 + (extendItems 10 width).length := by
      rw [← hloaded]
      simp only [List.length_append, List.length_cons, List.length_nil, kArgumentAndReturn]
    generalize helperItems .compareExchange width helper homes callArgumentBase atomicResultSlot =
      fallback at hpatched ⊢
    simp only [List.append_assoc, List.cons_append, List.nil_append, List.length_append,
      List.length_cons, List.length_nil, zero_add, Nat.reduceAdd, Nat.cast_add, Nat.cast_ofNat,
      Nat.cast_one, add_sub_add_left_eq_sub, le_add_iff_nonneg_right, zero_le,
      List.set_append_right, add_tsub_cancel_left, List.set_cons_succ, List.set_cons_zero,
      Std.le_refl, tsub_self] at hpatched
    rw [hpatched, hlength, ← hloaded, ← hfront]
    simp [loopItems, kArgumentAndReturn, kAtomicAddress, kAtomicOperand, kAtomicDesired,
      kAtomicStatus, kAtomicRetry]
    omega

end emission

end Atomics

end UniJit.Jit.RiscV
