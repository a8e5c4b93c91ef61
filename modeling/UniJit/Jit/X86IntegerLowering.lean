import UniJit.Jit.IntegerLowering
import UniJit.Jit.X86ProgramAssembler

/-!
# Shifts and floor divisions on x86-64

A shift by a variable amount goes through register `cl`, and a division through `rax` and `rdx`,
both of which may hold allocated values: `r11` keeps them meanwhile. Divisions by zero and by `-1`
are branched around, so that `idiv` does not trap.

`shiftBlock` and `floorBlock` are the instructions that the emitters leave behind, with their
patched displacements; `shiftLeft_exact` and `floor_exact` follow every path through them.
-/

namespace UniJit.Jit.X86

open UniJit.Ir UniJit.Lib UniJit.Lib.X86 UniJit.Lib.X86Program UniJit.Lib.MachineCode
open UniJit.Jit.CodeBuffer

/-- The register of the result. -/
def kReturnRegister : Register := kRax

namespace Assembler

/-- Emits Lua's shift. -/
def shiftLeft (destination value amount : Register) : Emit (Except Status Unit) := do
  moveRegister kScratch0 value
  moveRegister kScratch1 amount
  moveRegister kR11 kRcx
  let negative ← branchNegative kScratch1
  let positiveOvershift ← branchUnsignedGreaterEqual kScratch1 64
  moveRegister kRcx kScratch1
  shiftVariable kScratch0 false
  let positiveDone ← branch
  let negativePath ← size
  negate kScratch1 kScratch1
  let negativeOvershift ← branchUnsignedGreaterEqual kScratch1 64
  moveRegister kRcx kScratch1
  shiftVariable kScratch0 true
  let negativeDone ← branch
  let zeroPath ← size
  moveImmediate kScratch0 0
  let done ← size
  let status ← patchAll
    [patchBranch negative negativePath, patchBranch positiveOvershift zeroPath,
     patchBranch positiveDone done, patchBranch negativeOvershift zeroPath,
     patchBranch negativeDone done]
  moveRegister kRcx kR11
  if status.isOk ∧ destination ≠ kScratch0 then moveRegister destination kScratch0
  pure status

/-- The code of a division, and the patches of its branches in the order they are made. -/
def floorCode (destination lhs rhs : Register) (modulo : Bool) :
    Emit (List (Emit (Except Status Unit))) := do
  moveRegister kScratch1 rhs
  moveRegister kScratch0 lhs
  let zeroDivisor ← branchZero kScratch1
  let minusOne ← branchEqualImmediate kScratch1 (-1)
  if destination ≠ kRdx then moveRegister kR11 kRdx
  emit [0x48, 0x99]
  emit [rex 7 kScratch1, 0xF7, modrm 3 7 kScratch1]
  let exact ← branchZero kRdx
  let negativeRemainder ← branchNegative kRdx
  let positiveSameSign ← branchNonnegative kScratch1
  let positiveAdjust ← branch
  let negativePath ← size
  let negativeSameSign ← branchNegative kScratch1
  let adjust ← size
  if modulo then add kRdx kRdx kScratch1
  else emit [rex 0 kScratch0, 0x83, modrm 3 5 kScratch0, 1]
  let result ← size
  moveRegister destination (if modulo then kRdx else kScratch0)
  if destination ≠ kRdx then moveRegister kRdx kR11
  let normalDone ← branch
  let special ← size
  if modulo then moveImmediate destination 0 else negate destination kScratch0
  let specialDone ← branch
  let zeroPath ← size
  moveImmediate destination 0
  let done ← size
  pure
    [patchBranch zeroDivisor zeroPath, patchBranch minusOne special, patchBranch exact result,
     patchBranch negativeRemainder negativePath, patchBranch positiveSameSign result,
     patchBranch positiveAdjust adjust, patchBranch negativeSameSign result,
     patchBranch normalDone done, patchBranch specialDone done]

/-- Emits floor division or modulo. -/
def floorArithmetic (destination lhs rhs : Register) (modulo : Bool) :
    Emit (Except Status Unit) := do
  patchAll (← floorCode destination lhs rhs modulo)

/-- The quotients and remainders pass through the return register. -/
def lowerFloor (modulo : Bool) (target lhs rhs : Register) : Emit (Except Status Unit) := do
  match ← floorArithmetic kReturnRegister lhs rhs modulo with
  | .error status => pure (.error status)
  | .ok () =>
      if target ≠ kReturnRegister then moveRegister target kReturnRegister
      pure (.ok ())

/-- Emits an integer operation. -/
def lowerInteger : IntegerOperation → Register → Register → Register → Emit (Except Status Unit)
  | .floorDivide => lowerFloor false
  | .floorModulo => lowerFloor true
  | .shiftLeft => shiftLeft

end Assembler

/-! ## The back end -/

/-- What the sequences use of the machine. -/
def integerTarget : IntegerTarget X86Program.Instruction X86Program.State Register where
  isa := x86
  registers := X86Program.State.registers
  memory := X86Program.State.memory
  allocationRegisters := kAllocationRegisters
  scratch0 := kScratch0
  scratch1 := kScratch1
  scratchRegisters := [kScratch0, kScratch1, kR11]
  disjoint := by decide

/-! ## Shifts -/

open Assembler

/-- An instruction with its bytes. -/
abbrev Item := X86Program.Instruction × CodeBytes

/-- The move of a result to where it is wanted. -/
def moveItems (destination source : Register) : List Item :=
  if destination ≠ source then [(.move destination source, X86.moveRegister destination source)]
  else []

/-- The bytes of a move encode it. -/
lemma encodes_moveItems {destination source : Register} :
    ∀ item ∈ moveItems destination source, x86.Encodes item.1 item.2 := by
  unfold moveItems
  split_ifs
  · exact List.forall_mem_singleton.mpr (encodes_moveRegister _ _)
  · exact List.forall_mem_nil _

/-- The move of a result from the return register to its place. -/
lemma completes_move {b : Block x86} {items : List Item} {k : Nat} {destination : Register}
    {s₀ s : X86Program.State} {result : Word} (hitems : b.items = items ++ moveItems destination 0)
    (hk : k = items.length) (hresult : s.registers 0 = result)
    (hothers : ∀ r, r ∉ integerTarget.scratchRegisters → s.registers r = s₀.registers r)
    (hmemory : s.memory = s₀.memory) :
    b.Completes k s (integerTarget.Holds s₀ destination result) := by
  by_cases hdestination : destination = 0
  · have hlength : k = b.items.length := by
      rw [hitems, moveItems, if_neg (not_not.mpr hdestination), List.append_nil, hk]
    exact .done hlength ⟨hdestination ▸ hresult, fun r _ => hothers r, hmemory⟩
  · have hmove : moveItems destination 0 =
        [(.move destination 0, X86.moveRegister destination 0)] := if_pos hdestination
    have hitem : b.items[k]? = some (.move destination 0, X86.moveRegister destination 0) := by
      rw [hitems, hmove, hk, List.getElem?_concat_length]
    have hlength : k + 1 = b.items.length := by
      rw [hitems, hmove, hk, List.length_append]
      rfl
    refine .next hitem rfl (.done hlength ⟨?_, fun r hr hscratch => ?_, hmemory⟩)
    · exact (X86Program.State.set_registers ..).trans ((if_pos rfl).trans hresult)
    · exact (X86Program.State.set_registers ..).trans ((if_neg hr).trans (hothers r hscratch))

/-- The shift up to its last move. -/
def shiftItems (value amount : Register) : List Item :=
  [(.move 0 value, X86.moveRegister 0 value),
   (.move 10 amount, X86.moveRegister 10 amount),
   (.move 11 1, X86.moveRegister 11 1),
   (.test 10 10, testRegister 10),
   (.branch .negative 21, 0x0F :: 0x88 :: leBytes 4 (21 : BitVec 32)),
   (.binaryImmediate .compare 10 64, compareImmediate 10 64),
   (.branch .aboveEqual 35, 0x0F :: 0x83 :: leBytes 4 (35 : BitVec 32)),
   (.move 1 10, X86.moveRegister 1 10),
   (.shiftLeft 0, [rex 0 0, 0xD3, modrm 3 4 0]),
   (.jump 34, 0xE9 :: leBytes 4 (34 : BitVec 32)),
   -- a negative amount
   (.negate 10, [rex 0 10, 0xF7, modrm 3 3 10]),
   (.binaryImmediate .compare 10 64, compareImmediate 10 64),
   (.branch .aboveEqual 11, 0x0F :: 0x83 :: leBytes 4 (11 : BitVec 32)),
   (.move 1 10, X86.moveRegister 1 10),
   (.shiftRight 0, [rex 0 0, 0xD3, modrm 3 5 0]),
   (.jump 10, 0xE9 :: leBytes 4 (10 : BitVec 32)),
   -- too far
   (.moveImmediate 0 0, rex 0 0 :: 0xB8 :: leBytes 8 (0 : BitVec 64)),
   -- the result is in place
   (.move 1 11, X86.moveRegister 1 11)]

/-- The bytes of the shift encode its instructions. -/
lemma encodes_shiftItems (value amount : Register) :
    ∀ item ∈ shiftItems value amount, x86.Encodes item.1 item.2 := by
  simp only [shiftItems, List.forall_mem_cons]
  exact ⟨encodes_moveRegister _ _, encodes_moveRegister _ _, encodes_moveRegister _ _,
    encodes_of_read fun _ => rfl, encodes_branch rfl _, encodes_of_read fun _ => rfl,
    encodes_branch rfl _, encodes_moveRegister _ _, encodes_of_read fun _ => rfl, encodes_jump _,
    encodes_of_read fun _ => rfl, encodes_of_read fun _ => rfl, encodes_branch rfl _,
    encodes_moveRegister _ _, encodes_of_read fun _ => rfl, encodes_jump _,
    encodes_of_read fun _ => rfl, encodes_moveRegister _ _, List.forall_mem_nil _⟩

/-- The shift. -/
def shiftBlock (destination value amount : Register) : Block x86 where
  items := shiftItems value amount ++ moveItems destination 0
  encodes := List.forall_mem_append.mpr ⟨encodes_shiftItems _ _, encodes_moveItems⟩

/-- The bytes of the shift. -/
lemma bytes_shiftBlock (destination value amount : Register) :
    (shiftBlock destination value amount).bytes =
      (shiftItems value amount).flatMap (·.2) ++ (moveItems destination 0).flatMap (·.2) :=
  List.flatMap_append

/-- The emitter leaves the instructions of the block behind. -/
lemma run_shiftLeft (destination value amount : Register) (front : CodeBytes) :
    (Assembler.shiftLeft destination value amount).run front =
      (.ok (), front ++ (shiftBlock destination value amount).bytes) := by
  have hfront : front = front ++ [] := (List.append_nil front).symm
  conv_lhs => rw [hfront]
  simp (disch := norm_num [branchDelta]) only [Assembler.shiftLeft, Assembler.moveRegister, branchNegative,
    branchUnsignedGreaterEqual, shiftVariable, branch, negate, unaryWord, moveImmediate,
    StateT.run_bind, run_emit, run_branchAfter, pure_bind, run_size, patchAll, List.nil_append,
    ne_eq, not_true_eq_false, if_false, testRegister, compareImmediate, List.length_append,
    List.length_cons, List.length_nil, length_leBytes, length_moveRegister, Nat.reduceAdd,
    run_patchBranch, StateT.run_pure]
  simp only [X86.moveRegister, List.append_assoc, List.cons_append, List.nil_append,
    patchBytes_cons, patchBytes_field, patchBytes_skip]
  by_cases hdestination : destination = kScratch0
  · subst hdestination
    rfl
  · have hmove : moveItems destination 0 = [(.move destination 0, X86.moveRegister destination 0)] :=
      if_pos hdestination
    simp only [hdestination, Except.isOk, Except.toBool, not_false_eq_true, and_true, if_true,
      StateT.run_bind, run_emit, pure_bind, StateT.run_pure]
    rw [bytes_shiftBlock, hmove]
    simp only [List.append_assoc, List.cons_append, List.nil_append]
    rfl

/-- What holds while `r11` keeps another register. -/
structure Keeps (kept : Register) (s₀ s : X86Program.State) : Prop where
  held : s.registers 11 = s₀.registers kept
  others : ∀ r, r ∉ [0, kept, 10, 11] → s.registers r = s₀.registers r
  memory : s.memory = s₀.memory

namespace Keeps

variable {kept : Register} {s₀ s s' : X86Program.State}

/-- Writing a scratch register keeps what has to be kept. -/
lemma set (h : Keeps kept s₀ s) {r : Register} (hr : r ∈ [0, kept, 10]) (hne : r ≠ 11)
    (value : Word) : Keeps kept s₀ (s.set r value) := by
  refine ⟨?_, fun q hq => ?_, h.memory⟩
  · exact (X86Program.State.set_registers ..).trans ((if_neg hne.symm).trans h.held)
  · have hqr : q ≠ r := by
      rintro rfl
      exact hq (by simpa using Or.imp_right (Or.imp_right Or.inl) (by simpa using hr))
    exact (X86Program.State.set_registers ..).trans ((if_neg hqr).trans (h.others q hq))

/-- Flags do not matter. -/
lemma congr (h : Keeps kept s₀ s) (hregisters : s'.registers = s.registers)
    (hmemory : s'.memory = s.memory) : Keeps kept s₀ s' :=
  ⟨hregisters ▸ h.held, hregisters ▸ h.others, hmemory ▸ h.memory⟩

/-- The kept register comes back. -/
lemma restored (h : Keeps kept s₀ s) {r : Register} (hr : r ∉ integerTarget.scratchRegisters) :
    (s.set kept (s.registers 11)).registers r = s₀.registers r := by
  rw [X86Program.State.set_registers]
  split_ifs with hkept
  · rw [h.held, hkept]
  · refine h.others r fun hmem => hr ?_
    have hscratch : ∀ r, r ∈ ([0, 10, 11] : List Register) → r ∈ integerTarget.scratchRegisters := by
      decide
    apply hscratch
    simpa [hkept] using hmem

end Keeps

section shift

variable {destination value amount : Register} {s₀ s : X86Program.State} {result : Word}

/-- The end of a shift: the saved register comes back, and the result is moved to its place. -/
lemma completes_shift_done (h : Keeps 1 s₀ s) (hresult : s.registers 0 = result) :
    (shiftBlock destination value amount).Completes 17 s
      (integerTarget.Holds s₀ destination result) := by
  refine .next rfl rfl (completes_move
    (rfl : _ = shiftItems value amount ++ moveItems destination 0) rfl ?_ (fun r hr => ?_) h.memory)
  · rw [X86Program.State.set_registers, if_neg (by decide), hresult]
  · exact h.restored hr

/-- A shift that is too far. -/
lemma completes_shift_zero (h : Keeps 1 s₀ s) :
    (shiftBlock destination value amount).Completes 16 s
      (integerTarget.Holds s₀ destination 0) := by
  refine .next rfl rfl (completes_shift_done (h.set (by simp) (by decide) 0) ?_)
  rw [X86Program.State.set_registers, if_pos rfl]

/-- A comparison with 64, as the shifts make it. -/
lemma holds_range (s : X86Program.State) (r : Register) :
    X86Program.Condition.holds (X86Program.binary .compare r ((64 : Byte).signExtend 64) s)
      .aboveEqual = decide (64 ≤ (s.registers r).toNat) :=
  holds_aboveEqual_compare ..

variable {x y : Word}

/-- The shift itself, by an amount in range. -/
lemma completes_shift_variable (h : Keeps 1 s₀ s) (hx : s.registers 0 = x)
    (hy : s.registers 10 = y) (right : Bool) :
    (shiftBlock destination value amount).Completes (if right then 13 else 7) s
      (integerTarget.Holds s₀ destination
        (if right then x >>> (y.toNat % 64) else x <<< (y.toNat % 64))) := by
  have hcount : (s.set 1 (s.registers 10)).registers 1 = y := by
    rw [X86Program.State.set_registers, if_pos rfl, hy]
  have hvalue : (s.set 1 (s.registers 10)).registers 0 = x := by
    rw [X86Program.State.set_registers, if_neg (by decide), hx]
  have hshifting := (h.set (r := 1) (by simp) (by decide) (s.registers 10)).set (r := 0) (by simp)
    (by decide)
  cases right with
  | true =>
      refine .next rfl rfl (.next rfl rfl (completes_jump (j := 17) rfl rfl ?_))
      refine completes_shift_done (hshifting _) ?_
      rw [X86Program.State.set_registers, if_pos rfl, hcount, hvalue]
      rfl
  | false =>
      refine .next rfl rfl (.next rfl rfl (completes_jump (j := 17) rfl rfl ?_))
      refine completes_shift_done (hshifting _) ?_
      rw [X86Program.State.set_registers, if_pos rfl, hcount, hvalue]
      rfl

/-- The check of the range, and the shift. -/
lemma completes_shift_range (h : Keeps 1 s₀ s) (hx : s.registers 0 = x)
    (hy : s.registers 10 = y) (right : Bool) :
    (shiftBlock destination value amount).Completes (if right then 11 else 5) s
      (integerTarget.Holds s₀ destination (shiftTowards right x y)) := by
  have hcompared : Keeps 1 s₀ (X86Program.binary .compare 10 ((64 : Byte).signExtend 64) s) :=
    h.congr rfl rfl
  have hfar : 64 ≤ y.toNat → (shiftBlock destination value amount).Completes 16
      (X86Program.binary .compare 10 ((64 : Byte).signExtend 64) s)
      (integerTarget.Holds s₀ destination (shiftTowards right x y)) := by
    intro hrange
    rw [shiftTowards, if_pos hrange]
    exact completes_shift_zero hcompared
  have hnear : ¬ 64 ≤ y.toNat →
      (shiftBlock destination value amount).Completes (if right then 13 else 7)
      (X86Program.binary .compare 10 ((64 : Byte).signExtend 64) s)
      (integerTarget.Holds s₀ destination (shiftTowards right x y)) := by
    intro hrange
    rw [shiftTowards, if_neg hrange]
    exact completes_shift_variable hcompared hx hy right
  have hholds := holds_range s 10
  rw [hy] at hholds
  cases right with
  | true =>
      refine .next rfl rfl (completes_branch (j := 16) rfl rfl (fun hc => hfar ?_) fun hc => hnear ?_)
      · exact decide_eq_true_iff.mp (hholds ▸ hc)
      · exact decide_eq_false_iff_not.mp (hholds ▸ hc)
  | false =>
      refine .next rfl rfl (completes_branch (j := 16) rfl rfl (fun hc => hfar ?_) fun hc => hnear ?_)
      · exact decide_eq_true_iff.mp (hholds ▸ hc)
      · exact decide_eq_false_iff_not.mp (hholds ▸ hc)

/-- From the first branch on, with the value and the amount in scratch registers. -/
lemma completes_shift_branches (h : Keeps 1 s₀ s) (hx : s.registers 0 = x)
    (hy : s.registers 10 = y) :
    (shiftBlock destination value amount).Completes 3 s
      (integerTarget.Holds s₀ destination (Ir.shiftLeft x y)) := by
  rw [shiftLeft_eq]
  refine .next rfl rfl (completes_branch (j := 10) rfl rfl (fun hnegative => ?_)
    fun hnonnegative => ?_)
  · rw [holds_negative_setFlags, BitVec.and_self, hy] at hnegative
    rw [if_pos hnegative]
    refine .next rfl rfl (completes_shift_range ?_ ?_ ?_ true)
    · refine Keeps.set (r := 10) ?_ (by simp) (by decide) _
      exact h.congr rfl rfl
    · rw [X86Program.State.set_registers, if_neg (by decide)]
      exact hx
    · rw [X86Program.State.set_registers, if_pos rfl, X86Program.State.setFlags_registers, hy]
      exact BitVec.zero_sub y
  · rw [holds_negative_setFlags, BitVec.and_self, hy] at hnonnegative
    rw [if_neg (by simp [hnonnegative])]
    refine completes_shift_range ?_ ?_ ?_ false
    · exact h.congr rfl rfl
    · exact hx
    · exact hy

/-- **Shifts are exact**, for all registers that an allocation leaves them with. -/
lemma shiftLeft_exact (h : integerTarget.Assigns destination value amount) :
    integerTarget.LowersExactly (lowerInteger .shiftLeft destination value amount) destination
      value amount (IntegerOperation.evaluate .shiftLeft) := by
  have hne : ∀ r ∈ kScratch1 :: kAllocationRegisters, r ≠ 0 := by decide
  -- the amount is read after the value has been moved
  have hamount := hne amount h.rhs
  refine IntegerTarget.lowersExactly_of_block (shiftBlock destination value amount)
    (run_shiftLeft destination value amount) fun s => ?_
  refine .next rfl rfl (.next rfl rfl (.next rfl rfl
    (completes_shift_branches ⟨?_, fun r hr => ?_, rfl⟩ ?_ ?_)))
  · simp [X86Program.State.set_registers]
  · simp only [List.mem_cons, List.not_mem_nil, or_false, not_or] at hr
    simp [X86Program.State.set_registers, hr]
  · simp only [X86Program.State.set_registers]
    rfl
  · simp [X86Program.State.set_registers, hamount]
    rfl

end shift

/-! ## Floor divisions -/

/-- Floor arithmetic up to its last move. -/
def floorItems (lhs rhs : Register) (modulo : Bool) : List Item :=
  let displaced (opcode : Byte) (displacement : BitVec 32) : CodeBytes :=
    0x0F :: opcode :: leBytes 4 displacement
  let toZero : BitVec 32 := if modulo then 88 else 82
  let toSpecial : BitVec 32 := if modulo then 63 else 64
  let toResult : BitVec 32 := if modulo then 35 else 36
  let toResultPositive : BitVec 32 := if modulo then 17 else 18
  let toResultNegative : BitVec 32 := if modulo then 3 else 4
  let toEnd : BitVec 32 := if modulo then 25 else 18
  [(.move 10 rhs, X86.moveRegister 10 rhs),
   (.move 0 lhs, X86.moveRegister 0 lhs),
   (.test 10 10, testRegister 10),
   (.branch .equal toZero, displaced 0x84 toZero),
   (.binaryImmediate .compare 10 (-1), compareImmediate 10 (-1)),
   (.branch .equal toSpecial, displaced 0x84 toSpecial),
   (.move 11 2, X86.moveRegister 11 2),
   (.spreadSign, [0x48, 0x99]),
   (.divide 10, [rex 7 10, 0xF7, modrm 3 7 10]),
   (.test 2 2, testRegister 2),
   (.branch .equal toResult, displaced 0x84 toResult),
   (.test 2 2, testRegister 2),
   (.branch .negative 14, displaced 0x88 14),
   (.test 10 10, testRegister 10),
   (.branch .nonnegative toResultPositive, displaced 0x89 toResultPositive),
   (.jump 9, 0xE9 :: leBytes 4 (9 : BitVec 32)),
   -- a negative remainder
   (.test 10 10, testRegister 10),
   (.branch .negative toResultNegative, displaced 0x88 toResultNegative),
   -- the signs differ
   if modulo then (.binary .add 2 10, binaryBytes 0x01 2 10)
   else (.binaryImmediate .subtract 0 1, [rex 0 0, 0x83, modrm 3 5 0, 1]),
   -- the result is known
   if modulo then (.move 0 2, X86.moveRegister 0 2) else (.move 0 0, X86.moveRegister 0 0),
   (.move 2 11, X86.moveRegister 2 11),
   (.jump toEnd, 0xE9 :: leBytes 4 toEnd),
   -- a division by -1
   if modulo then (.moveImmediate 0 0, rex 0 0 :: 0xB8 :: leBytes 8 (0 : BitVec 64))
   else (.negate 0, [rex 0 0, 0xF7, modrm 3 3 0]),
   (.jump 10, 0xE9 :: leBytes 4 (10 : BitVec 32)),
   -- a division by zero
   (.moveImmediate 0 0, rex 0 0 :: 0xB8 :: leBytes 8 (0 : BitVec 64))]

/-- The bytes of floor arithmetic encode its instructions. -/
lemma encodes_floorItems (lhs rhs : Register) (modulo : Bool) :
    ∀ item ∈ floorItems lhs rhs modulo, x86.Encodes item.1 item.2 := by
  simp only [floorItems, List.forall_mem_cons]
  refine ⟨encodes_moveRegister _ _, encodes_moveRegister _ _,
    encodes_of_read fun _ => rfl, encodes_branch rfl _, encodes_of_read fun _ => rfl,
    encodes_branch rfl _, encodes_moveRegister _ _, encodes_of_read fun _ => rfl,
    encodes_of_read fun _ => rfl, encodes_of_read fun _ => rfl, encodes_branch rfl _,
    encodes_of_read fun _ => rfl, encodes_branch rfl _, encodes_of_read fun _ => rfl,
    encodes_branch rfl _, encodes_jump _, encodes_of_read fun _ => rfl, encodes_branch rfl _,
    ?_, ?_, encodes_moveRegister _ _, encodes_jump _, ?_, encodes_jump _,
    encodes_of_read fun _ => rfl, List.forall_mem_nil _⟩
  · cases modulo <;> exact encodes_of_read fun _ => rfl
  · cases modulo <;> exact encodes_moveRegister _ _
  · cases modulo <;> exact encodes_of_read fun _ => rfl

/-- Floor arithmetic. -/
def floorBlock (target lhs rhs : Register) (modulo : Bool) : Block x86 where
  items := floorItems lhs rhs modulo ++ moveItems target 0
  encodes := List.forall_mem_append.mpr ⟨encodes_floorItems _ _ _, encodes_moveItems⟩

/-- The emitter leaves the instructions in front of the final move behind. -/
lemma run_floorArithmetic (lhs rhs : Register) (modulo : Bool) (front : CodeBytes) :
    (floorArithmetic kReturnRegister lhs rhs modulo).run front =
      (.ok (), front ++ (floorItems lhs rhs modulo).flatMap (·.2)) := by
  have hfront : front = front ++ [] := (List.append_nil front).symm
  have hne : kScratch0 ≠ kRdx := by decide
  have hreturn : kReturnRegister = kScratch0 := rfl
  conv_lhs => rw [hfront, floorArithmetic, StateT.run_bind]
  cases modulo <;>
  · simp only [floorCode, Assembler.moveRegister, Assembler.branchZero, branchNegative,
      branchNonnegative, branchEqualImmediate, branch, negate, unaryWord, add, prepareBinary,
      moveImmediate, hreturn, hne, StateT.run_bind, run_emit, run_branchAfter, pure_bind, run_size,
      List.nil_append, ne_eq, not_true_eq_false, not_false_eq_true, if_false, if_true,
      Bool.false_eq_true, testRegister, compareImmediate, binaryBytes, List.length_append,
      List.length_cons, List.length_nil, length_leBytes, length_moveRegister, Nat.reduceAdd,
      StateT.run_pure]
    simp (disch := norm_num [branchDelta]) only [patchAll, StateT.run_bind, run_patchBranch,
      pure_bind, StateT.run_pure]
    simp only [X86.moveRegister, List.append_assoc, List.cons_append, List.nil_append,
      patchBytes_cons, patchBytes_field, patchBytes_skip]
    rfl

/-- The emitter with the move that follows it leaves the block behind. -/
lemma run_lowerFloor (target lhs rhs : Register) (modulo : Bool) (front : CodeBytes) :
    (lowerFloor modulo target lhs rhs).run front =
      (.ok (), front ++ (floorBlock target lhs rhs modulo).bytes) := by
  have hbytes : (floorBlock target lhs rhs modulo).bytes =
      (floorItems lhs rhs modulo).flatMap (·.2) ++ (moveItems target 0).flatMap (·.2) :=
    List.flatMap_append
  rw [lowerFloor, StateT.run_bind, run_floorArithmetic, hbytes]
  by_cases htarget : target = 0
  · have hmove : moveItems target 0 = [] := if_neg (not_not.mpr htarget)
    have hreturn : ¬ target ≠ kReturnRegister := not_not.mpr htarget
    rw [hmove, List.flatMap_nil, List.append_nil]
    show StateT.run (if target ≠ kReturnRegister then _ else _) _ = _
    rw [if_neg hreturn]
    rfl
  · have hmove : moveItems target 0 = [(.move target 0, X86.moveRegister target 0)] :=
      if_pos htarget
    have hreturn : target ≠ kReturnRegister := htarget
    rw [hmove, List.flatMap_singleton, ← List.append_assoc]
    show StateT.run (if target ≠ kReturnRegister then _ else _) _ = _
    rw [if_pos hreturn]
    rfl

section floor

variable {target lhs rhs : Register} {s₀ s : X86Program.State} {modulo : Bool} {q r y result : Word}

/-- The result is moved to the return register, and the saved register comes back. -/
lemma completes_floor_result (h : Keeps 2 s₀ s)
    (hresult : s.registers (if modulo then 2 else 0) = result) :
    (floorBlock target lhs rhs modulo).Completes 19 s (integerTarget.Holds s₀ target result) := by
  have hend : (floorBlock target lhs rhs modulo).Completes 20 (s.set 0 result)
      (integerTarget.Holds s₀ target result) := by
    refine .next rfl rfl (completes_jump (j := 25) rfl (by cases modulo <;> rfl) ?_)
    refine completes_move (rfl : _ = floorItems lhs rhs modulo ++ moveItems target 0) rfl ?_
      (fun r hr => ?_) h.memory
    · rw [X86Program.State.set_registers, if_neg (by decide), X86Program.State.set_registers,
        if_pos rfl]
    · exact (h.set (by simp) (by decide) result).restored hr
  cases modulo with
  | true => exact .next rfl (by rw [← hresult]; rfl) hend
  | false => exact .next rfl (by rw [← hresult]; rfl) hend

/-- The quotient or the remainder, once the signs are known to differ. -/
lemma completes_floor_adjust (h : Keeps 2 s₀ s) (hq : s.registers 0 = q) (hr : s.registers 2 = r)
    (hy : s.registers 10 = y) :
    (floorBlock target lhs rhs modulo).Completes 18 s
      (integerTarget.Holds s₀ target (if modulo then r + y else q - 1)) := by
  cases modulo with
  | true =>
      refine .next rfl rfl (completes_floor_result ?_ ?_)
      · exact (h.set (r := 2) (by simp) (by decide) (s.registers 2 + s.registers 10)).congr rfl rfl
      · show (s.set 2 (s.registers 2 + s.registers 10)).registers 2 = r + y
        rw [X86Program.State.set_registers, if_pos rfl, hr, hy]
  | false =>
      refine .next rfl rfl (completes_floor_result ?_ ?_)
      · exact (h.set (r := 0) (by simp) (by decide) (s.registers 0 - 1)).congr rfl rfl
      · show (s.set 0 (s.registers 0 - 1)).registers 0 = q - 1
        rw [X86Program.State.set_registers, if_pos rfl, hq]

/-- The signs of the remainder and of the divisor decide. -/
lemma completes_floor_signs (h : Keeps 2 s₀ s) (hq : s.registers 0 = q) (hr : s.registers 2 = r)
    (hy : s.registers 10 = y) :
    (floorBlock target lhs rhs modulo).Completes 9 s
      (integerTarget.Holds s₀ target (adjustTruncated modulo q r y)) := by
  have hresult : s.registers (if modulo then 2 else 0) = if modulo then r else q := by
    cases modulo <;> simp [hq, hr]
  refine .next rfl rfl (completes_branch (j := 19) rfl (by cases modulo <;> rfl)
    (fun hexact => ?_) fun hinexact => .next rfl rfl ?_)
  · rw [holds_equal_setFlags, BitVec.and_self, hr, beq_iff_eq] at hexact
    rw [adjustTruncated, if_neg fun hsigns => hsigns.1 hexact]
    exact completes_floor_result (h.congr rfl rfl) hresult
  rw [holds_equal_setFlags, BitVec.and_self, hr, beq_eq_false_iff_ne] at hinexact
  simp only [adjustTruncated, BitVec.msb_xor, hinexact, ne_eq, not_false_eq_true, true_and]
  refine completes_branch (j := 16) rfl rfl (fun hnegative => .next rfl rfl ?_)
    fun hnonnegative => .next rfl rfl ?_
  · rw [holds_negative_setFlags, BitVec.and_self] at hnegative
    rw [show r.msb = true from hr ▸ hnegative]
    refine completes_branch (j := 19) rfl (by cases modulo <;> rfl) (fun hsame => ?_)
      fun hdiffer => ?_
    · rw [holds_negative_setFlags, BitVec.and_self] at hsame
      rw [if_neg (by simp [show y.msb = true from hy ▸ hsame])]
      refine completes_floor_result ?_ hresult
      exact h.congr rfl rfl
    · rw [holds_negative_setFlags, BitVec.and_self] at hdiffer
      rw [if_pos (by simp [show y.msb = false from hy ▸ hdiffer])]
      refine completes_floor_adjust ?_ ?_ ?_ ?_
      · exact h.congr rfl rfl
      · exact hq
      · exact hr
      · exact hy
  · rw [holds_negative_setFlags, BitVec.and_self] at hnonnegative
    rw [show r.msb = false from hr ▸ hnonnegative]
    refine completes_branch (j := 19) rfl (by cases modulo <;> rfl) (fun hsame => ?_)
      fun hdiffer => ?_
    · rw [holds_nonnegative_setFlags, BitVec.and_self, Bool.not_eq_true'] at hsame
      rw [if_neg (by simp [show y.msb = false from hy ▸ hsame])]
      refine completes_floor_result ?_ hresult
      exact h.congr rfl rfl
    · rw [holds_nonnegative_setFlags, BitVec.and_self, Bool.not_eq_false'] at hdiffer
      rw [if_pos (by simp [show y.msb = true from hy ▸ hdiffer])]
      refine completes_jump (j := 18) rfl (by cases modulo <;> rfl)
        (completes_floor_adjust ?_ ?_ ?_ ?_)
      · exact h.congr rfl rfl
      · exact hq
      · exact hr
      · exact hy

variable {x : Word}

/-- Writing a scratch register disturbs nothing. -/
lemma undisturbed_set (h : integerTarget.Undisturbed s₀ s) {r : Register}
    (hr : r ∈ integerTarget.scratchRegisters) (value : Word) :
    integerTarget.Undisturbed s₀ (s.set r value) := by
  refine ⟨fun q hq => ?_, h.memory⟩
  have hne : q ≠ r := fun heq => hq (heq ▸ hr)
  exact (X86Program.State.set_registers ..).trans ((if_neg hne).trans (h.others q hq))

/-- The end of a division, with the result in the return register. -/
lemma completes_floor_done (h : integerTarget.Undisturbed s₀ s) (hresult : s.registers 0 = result) :
    (floorBlock target lhs rhs modulo).Completes 25 s (integerTarget.Holds s₀ target result) :=
  completes_move (rfl : _ = floorItems lhs rhs modulo ++ moveItems target 0) rfl hresult h.others
    h.memory

/-- A division that cannot trap. -/
lemma completes_floor_divide (h : integerTarget.Undisturbed s₀ s) (hx : s.registers 0 = x)
    (hy : s.registers 10 = y) (hzero : y ≠ 0) (hone : y ≠ -1) :
    (floorBlock target lhs rhs modulo).Completes 6 s
      (integerTarget.Holds s₀ target (floorWord modulo x y)) := by
  let s₁ := s.set 11 (s.registers 2)
  let s₂ := s₁.set 2 (if (s₁.registers 0).msb then BitVec.allOnes 64 else 0)
  have hkeeps : Keeps 2 s₀ s₁ := by
    have hne : ∀ r, r ∉ ([0, 2, 10, 11] : List Register) → r ≠ 11 ∧
        r ∉ integerTarget.scratchRegisters := by decide
    refine ⟨?_, fun r hr => ?_, h.memory⟩
    · exact (X86Program.State.set_registers ..).trans ((if_pos rfl).trans (h.others 2 (by decide)))
    · exact (X86Program.State.set_registers ..).trans
        ((if_neg (hne r hr).1).trans (h.others r (hne r hr).2))
  have hdivisor : s₂.registers 10 = y := by
    simp [s₂, s₁, X86Program.State.set_registers, hy]
  have hquotients : quotients s₂ y = some (x.sdiv y, x.srem y) := by
    refine quotients_of_spread ?_ ?_ hzero hone
    · simp [s₂, s₁, X86Program.State.set_registers, hx]
    · simp [s₂, s₁, X86Program.State.set_registers, hx]
  have hstep : x86.step (.divide 10) 3 s₂ =
      .next ((s₂.set 0 (x.sdiv y)).set 2 (x.srem y)) := by
    show X86Program.step (.divide 10) 3 s₂ = _
    simp only [X86Program.step, hdivisor, hquotients]
  have hdivided : Keeps 2 s₀ ((s₂.set 0 (x.sdiv y)).set 2 (x.srem y)) :=
    ((hkeeps.set (by simp) (by decide) _).set (by simp) (by decide) _).set (by simp) (by decide) _
  refine .next rfl rfl (.next rfl rfl (.next rfl hstep ?_))
  rw [floorWord_eq hzero]
  refine completes_floor_signs hdivided ?_ ?_ ?_
  · simp [X86Program.State.set_registers]
  · simp [X86Program.State.set_registers]
  · simp [X86Program.State.set_registers, hdivisor]

/-- A division by `-1`, which could overflow, is a negation. -/
lemma completes_floor_special (h : integerTarget.Undisturbed s₀ s) (hx : s.registers 0 = x) :
    (floorBlock target lhs rhs modulo).Completes 22 s
      (integerTarget.Holds s₀ target (floorWord modulo x (-1))) := by
  have hzero : (-1 : Word) ≠ 0 := by decide
  cases modulo with
  | true =>
      have hresult : floorWord true x (-1) = 0 := by
        rw [floorWord_eq hzero, srem_neg_one, adjustTruncated, if_neg fun hsigns => hsigns.1 rfl]
        rfl
      rw [hresult]
      refine .next rfl rfl (completes_jump (j := 25) rfl rfl (completes_floor_done ?_ ?_))
      · exact undisturbed_set h (by decide) _
      · rw [X86Program.State.set_registers, if_pos rfl]
  | false =>
      have hresult : floorWord false x (-1) = 0 - x := by
        rw [floorWord_eq hzero, srem_neg_one, sdiv_neg_one, adjustTruncated,
          if_neg fun hsigns => hsigns.1 rfl]
        exact (BitVec.zero_sub x).symm
      rw [hresult]
      refine .next rfl rfl (completes_jump (j := 25) rfl rfl (completes_floor_done ?_ ?_))
      · exact (undisturbed_set h (r := 0) (by decide) (0 - s.registers 0)).congr rfl rfl
      · show (s.set 0 (0 - s.registers 0)).registers 0 = 0 - x
        rw [X86Program.State.set_registers, if_pos rfl, hx]

/-- A division by zero gives zero. -/
lemma completes_floor_zero (h : integerTarget.Undisturbed s₀ s) :
    (floorBlock target lhs rhs modulo).Completes 24 s (integerTarget.Holds s₀ target 0) := by
  refine .next rfl rfl (completes_floor_done (undisturbed_set h (by decide) _) ?_)
  rw [X86Program.State.set_registers, if_pos rfl]

/-- From the tests of the divisor on. -/
lemma completes_floor_tests (h : integerTarget.Undisturbed s₀ s) (hx : s.registers 0 = x)
    (hy : s.registers 10 = y) :
    (floorBlock target lhs rhs modulo).Completes 2 s
      (integerTarget.Holds s₀ target (floorWord modulo x y)) := by
  refine .next rfl rfl (completes_branch (j := 24) rfl (by cases modulo <;> rfl)
    (fun hzero => ?_) fun hnonzero => .next rfl rfl ?_)
  · rw [holds_equal_setFlags, BitVec.and_self, hy, beq_iff_eq] at hzero
    rw [hzero, floorWord_zero]
    refine completes_floor_zero ?_
    exact h.congr rfl rfl
  · rw [holds_equal_setFlags, BitVec.and_self, hy, beq_eq_false_iff_ne] at hnonzero
    refine completes_branch (j := 22) rfl (by cases modulo <;> rfl) (fun hone => ?_)
      fun hother => ?_
    · have hminus : y = -1 := by
        have hcompare := (holds_equal_compare ..).symm.trans hone
        rw [beq_iff_eq] at hcompare
        exact hy.symm.trans hcompare
      rw [hminus]
      refine completes_floor_special ?_ ?_
      · exact h.congr rfl rfl
      · exact hx
    · have hminus : y ≠ -1 := by
        have hcompare := (holds_equal_compare ..).symm.trans hother
        rw [beq_eq_false_iff_ne] at hcompare
        exact fun heq => hcompare (hy.trans heq)
      refine completes_floor_divide ?_ ?_ ?_ hnonzero hminus
      · exact h.congr rfl rfl
      · exact hx
      · exact hy

/-- **Floor divisions are exact**, for all registers that an allocation leaves them with. -/
lemma floor_exact (modulo : Bool) (h : integerTarget.Assigns target lhs rhs) :
    integerTarget.LowersExactly (lowerFloor modulo target lhs rhs) target lhs rhs
      (floorWord modulo) := by
  have hne : ∀ r ∈ kScratch0 :: kAllocationRegisters, r ≠ 10 := by decide
  -- the dividend is read after the divisor has been moved
  have hlhs := hne lhs h.lhs
  refine IntegerTarget.lowersExactly_of_block (floorBlock target lhs rhs modulo)
    (run_lowerFloor target lhs rhs modulo) fun s => ?_
  have hmoved : integerTarget.Undisturbed s ((s.set 10 (s.registers rhs)).set 0
      ((s.set 10 (s.registers rhs)).registers lhs)) :=
    undisturbed_set (undisturbed_set (.refl _ s) (by decide) _) (by decide) _
  refine .next rfl rfl (.next rfl rfl (completes_floor_tests hmoved ?_ ?_))
  · simp [X86Program.State.set_registers, hlhs]
    rfl
  · simp [X86Program.State.set_registers]
    rfl

end floor

/-- **Integer lowering on x86-64 is exact.** -/
lemma lowerInteger_exact (o : IntegerOperation) {target lhs rhs : Register}
    (h : integerTarget.Assigns target lhs rhs) :
    integerTarget.LowersExactly (lowerInteger o target lhs rhs) target lhs rhs o.evaluate := by
  cases o with
  | floorDivide => exact floor_exact false h
  | floorModulo => exact floor_exact true h
  | shiftLeft => exact shiftLeft_exact h

end UniJit.Jit.X86
