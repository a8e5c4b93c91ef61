import UniJit.Jit.IntegerLowering
import UniJit.Lib.AArch64

/-!
# Shifts and floor divisions on AArch64

The machine divides without trapping and shifts by the low bits of an amount, so only the range of
a shift, a zero divisor and the signs of a division are branched on.

`shiftBlock` and `floorBlock` are the instructions that the emitters leave behind, with their
patched displacements; `lowerInteger_exact` follows every path through them.
-/

namespace UniJit.Jit.AArch64

open UniJit.Ir UniJit.Lib UniJit.Lib.AArch64 UniJit.Lib.MachineCode UniJit.Jit.CodeBuffer

/-! ## Registers -/

/-- The register of the result. -/
def kReturnRegister : Register := 0
/-- The third scratch register. -/
def kScratch2 : Register := 8
/-- The first scratch register. -/
def kScratch0 : Register := 16
/-- The second scratch register. -/
def kScratch1 : Register := 17

/-- The registers that values are allocated to. -/
def kAllocationRegisters : List Register := [10, 11, 12, 13, 14, 15]

/-! ## Emitters -/

namespace Assembler

/-- A register as a field of an instruction. -/
def reg (value : Register) : BitVec 32 := BitVec.ofNat 32 value

/-- Emits a move. -/
def moveRegister (destination source : Register) : Emit Unit :=
  emitU32 (0xAA0003E0#32 ||| reg source <<< 16 ||| reg destination)

/-- Half 0 is moved, zero or not, and the later halves that are not zero are inserted. -/
def moveImmediate (destination : Register) (immediate : Word) : Emit Unit := do
  let emitted ← [0, 1, 2, 3].foldlM (fun emitted half => do
    let value : BitVec 32 := ((immediate >>> (half * 16)) &&& 0xFFFF).setWidth 32
    if value = 0 ∧ emitted = true then pure emitted
    else do
      let opcode : BitVec 32 := if emitted then 0xF2800000 else 0xD2800000
      emitU32 (opcode ||| BitVec.ofNat 32 half <<< 21 ||| value <<< 5 ||| reg destination)
      pure true) false
  if emitted = false then emitU32 (0xD2800000#32 ||| reg destination)

/-- An instruction with three registers. -/
def emitRegisters (opcode : BitVec 32) (destination lhs rhs : Register) : Emit Unit :=
  emitU32 (opcode ||| reg rhs <<< 16 ||| reg lhs <<< 5 ||| reg destination)

/-- Emits an addition. -/
def add (destination lhs rhs : Register) : Emit Unit := emitRegisters 0x8B000000 destination lhs rhs

/-- Emits a subtraction. -/
def subtract (destination lhs rhs : Register) : Emit Unit :=
  emitRegisters 0xCB000000 destination lhs rhs

/-- Emits a negation. -/
def negate (destination source : Register) : Emit Unit := subtract destination 31 source

/-- Emits an exclusive disjunction. -/
def bitwiseXor (destination lhs rhs : Register) : Emit Unit :=
  emitRegisters 0xCA000000 destination lhs rhs

/-- Emits a comparison with an immediate. -/
def compareImmediate (source : Register) (immediate : BitVec 32) : Emit Unit :=
  emitU32 (0xF100001F#32 ||| (immediate &&& 0xFFF) <<< 10 ||| reg source <<< 5)

/-- A branch without its displacement, and where it is. -/
def branchWith (instruction : BitVec 32) : Emit Nat := do
  let offset ← size
  emitU32 instruction
  pure offset

/-- Emits a branch to be patched. -/
def branch : Emit Nat := branchWith 0x14000000

/-- Emits a branch on zero to be patched. -/
def branchZero (source : Register) : Emit Nat := branchWith (0xB4000000#32 ||| reg source)

/-- Emits a conditional branch to be patched. -/
def branchCondition (condition : BitVec 32) : Emit Nat :=
  branchWith (0x54000000#32 ||| (condition &&& 0xF))

/-- Patch a branch with a displacement of some bits, in words. -/
def patchWords (misaligned tooFar : String) (bits : Nat) (encode : BitVec 32 → BitVec 32)
    (offset target : Nat) : Emit (Except Status Unit) :=
  let delta : Int := (target : Int) - offset
  let words := delta.tdiv 4
  if delta % 4 ≠ 0 then pure (.error ⟨.codeGenerationFailed, misaligned, 0⟩)
  else if words < -2 ^ (bits - 1) ∨ 2 ^ (bits - 1) - 1 < words then
    pure (.error ⟨.resourceExhausted, tooFar, 0⟩)
  else do
    patchU32 offset (encode (BitVec.ofInt 32 words))
    pure (.ok ())

/-- Sets the target of a conditional branch. -/
def patchConditionBranch (offset target : Nat) (condition : BitVec 32) :
    Emit (Except Status Unit) :=
  patchWords "AArch64 conditional branch target is not instruction aligned"
    "AArch64 conditional branch exceeds its encoding range" 19
    (fun words => 0x54000000#32 ||| (words &&& 0x7FFFF) <<< 5 ||| (condition &&& 0xF)) offset target

/-- A branch without a condition. -/
def patchBranch (offset target : Nat) : Emit (Except Status Unit) :=
  patchWords "AArch64 branch target is not instruction aligned"
    "AArch64 branch exceeds its encoding range" 26
    (fun words => 0x14000000#32 ||| (words &&& 0x03FFFFFF)) offset target

/-- Sets the target of a branch on zero. -/
def patchZeroBranch (offset target : Nat) (source : Register) : Emit (Except Status Unit) :=
  patchWords "AArch64 safepoint branch target is not instruction aligned"
    "AArch64 safepoint branch exceeds its encoding range" 19
    (fun words => 0xB4000000#32 ||| (words &&& 0x7FFFF) <<< 5 ||| reg source) offset target

/-! ## The sequences -/

/-- Emits Lua's shift. -/
def shiftLeft (destination value amount : Register) : Emit (Except Status Unit) := do
  moveRegister kScratch0 value
  moveRegister kScratch1 amount
  compareImmediate kScratch1 0
  let negative ← branchCondition 0xB
  compareImmediate kScratch1 64
  let positiveOvershift ← branchCondition 0x2
  emitRegisters 0x9AC02000 kScratch0 kScratch0 kScratch1
  let positiveDone ← branch
  let negativePath ← size
  negate kScratch1 kScratch1
  compareImmediate kScratch1 64
  let negativeOvershift ← branchCondition 0x2
  emitRegisters 0x9AC02400 kScratch0 kScratch0 kScratch1
  let negativeDone ← branch
  let zeroPath ← size
  moveImmediate kScratch0 0
  let done ← size
  let status ← patchAll
    [patchConditionBranch negative negativePath 0xB,
     patchConditionBranch positiveOvershift zeroPath 0x2, patchBranch positiveDone done,
     patchConditionBranch negativeOvershift zeroPath 0x2, patchBranch negativeDone done]
  if status.isOk ∧ destination ≠ kScratch0 then moveRegister destination kScratch0
  pure status

/-- The code of a division, and the patches of its branches in the order they are made. -/
def floorCode (destination lhs rhs : Register) (modulo : Bool) :
    Emit (List (Emit (Except Status Unit))) := do
  moveRegister kScratch0 lhs
  moveRegister kScratch1 rhs
  moveRegister destination kScratch0
  let zeroDivisor ← branchZero kScratch1
  emitRegisters 0x9AC00C00 kScratch0 kScratch0 kScratch1
  emitU32 (0x9B008000#32 ||| reg kScratch1 <<< 16 ||| reg destination <<< 10 |||
    reg kScratch0 <<< 5 ||| reg kReturnRegister)
  let exact ← branchZero kReturnRegister
  bitwiseXor kScratch2 kReturnRegister kScratch1
  compareImmediate kScratch2 0
  let sameSign ← branchCondition 0xA
  if modulo then add kReturnRegister kReturnRegister kScratch1
  else do
    moveImmediate destination 1
    subtract kScratch0 kScratch0 destination
  let result ← size
  moveRegister destination (if modulo then kReturnRegister else kScratch0)
  let normalDone ← branch
  let zeroPath ← size
  moveImmediate destination 0
  let done ← size
  pure
    [patchZeroBranch zeroDivisor zeroPath kScratch1, patchZeroBranch exact result kReturnRegister,
     patchConditionBranch sameSign result 0xA, patchBranch normalDone done]

/-- Emits floor division or modulo. -/
def floorArithmetic (destination lhs rhs : Register) (modulo : Bool) :
    Emit (Except Status Unit) := do
  patchAll (← floorCode destination lhs rhs modulo)

/-- The quotients and remainders pass through the return register. -/
def lowerFloor (modulo : Bool) (target lhs rhs : Register) : Emit (Except Status Unit) := do
  match ← floorArithmetic kReturnRegister lhs rhs modulo with
  | .error status => pure (.error status)
  | .ok () =>
      moveRegister target kReturnRegister
      pure (.ok ())

/-- Emits an integer operation. -/
def lowerInteger : IntegerOperation → Register → Register → Register → Emit (Except Status Unit)
  | .floorDivide => lowerFloor false
  | .floorModulo => lowerFloor true
  | .shiftLeft => shiftLeft

end Assembler

open Assembler

/-! ## The back end -/

/-- What the sequences use of the machine. -/
def integerTarget : IntegerTarget Instruction State Register where
  isa := aarch64
  registers := State.registers
  memory := State.memory
  allocationRegisters := kAllocationRegisters
  scratch0 := kScratch0
  scratch1 := kScratch1
  scratchRegisters := [kReturnRegister, kScratch2, kScratch0, kScratch1]
  disjoint := by decide

/-- An instruction with its bytes. -/
abbrev Item := Instruction × CodeBytes

/-- An instruction with its word. -/
def item (i : Instruction) (word : BitVec 32) : Item := (i, leBytes 4 word)

/-- A move with its bytes. -/
def moveItem (destination source : Register) : Item :=
  item (.or destination 31 source) (0xAA0003E0#32 ||| reg source <<< 16 ||| reg destination)

/-- The bytes of a move encode it. -/
lemma encodes_moveItem (destination source : Register) :
    aarch64.Encodes (moveItem destination source).1 (moveItem destination source).2 := by
  have hdecode : ∀ destination source : Register,
      decodeWord (0xAA0003E0#32 ||| reg source <<< 16 ||| reg destination) =
        some (.or destination 31 source) := by decide +kernel
  exact encodes (hdecode destination source)

/-! ## Running the emitters -/

/-- What emitting a branch leaves. -/
lemma run_branchWith (front code : CodeBytes) (instruction : BitVec 32) :
    (branchWith instruction).run (front ++ code) =
      pure (front.length + code.length, front ++ (code ++ leBytes 4 instruction)) := by
  simp only [branchWith, StateT.run_bind, run_size, pure_bind, run_emitU32, StateT.run_pure]

/-- A patch that reaches its target exchanges the branch. -/
lemma run_patchWords (front code : CodeBytes) {misaligned tooFar : String} {bits : Nat}
    {encode : BitVec 32 → BitVec 32} {offset target : Nat}
    (haligned : ((target : Int) - offset) % 4 = 0)
    (hlower : -2 ^ (bits - 1) ≤ ((target : Int) - offset).tdiv 4)
    (hupper : ((target : Int) - offset).tdiv 4 ≤ 2 ^ (bits - 1) - 1) :
    (patchWords misaligned tooFar bits encode (front.length + offset)
      (front.length + target)).run (front ++ code) =
        pure (.ok (), front ++ patchBytes
          (leBytes 4 (encode (BitVec.ofInt 32 (((target : Int) - offset).tdiv 4)))) offset code) := by
  have hdelta : ((front.length + target : Nat) : Int) - (front.length + offset : Nat) =
      (target : Int) - offset := by omega
  have hrange : ¬ (((target : Int) - offset).tdiv 4 < -2 ^ (bits - 1) ∨
      2 ^ (bits - 1) - 1 < ((target : Int) - offset).tdiv 4) :=
    not_or.mpr ⟨not_lt.mpr hlower, not_lt.mpr hupper⟩
  simp only [patchWords, hdelta, haligned, ne_eq, not_true_eq_false, if_false, hrange,
    StateT.run_bind, run_patchU32, pure_bind, StateT.run_pure]

lemma moveImmediate_zero (destination : Register) :
    moveImmediate destination 0 = emitU32 (0xD2800000#32 ||| reg destination) := rfl

lemma moveImmediate_one : moveImmediate kReturnRegister 1 = emitU32 0xD2800020 := rfl

/-! ## Shifts -/

/-- The move of a shifted word to its place. -/
def shiftMoveItems (destination : Register) : List Item :=
  if destination ≠ 16 then [moveItem destination 16] else []

/-- The shift up to its last move. -/
def shiftItems (value amount : Register) : List Item :=
  [moveItem 16 value,
   moveItem 17 amount,
   item (.compareImmediate 17 0) 0xF100023F,
   item (.branchCondition .lessThan 5) 0x540000AB,
   item (.compareImmediate 17 64) 0xF101023F,
   item (.branchCondition .carrySet 8) 0x54000102,
   item (.shiftLeft 16 16 17) 0x9AD12210,
   item (.branch 7) 0x14000007,
   -- a negative amount
   item (.subtract 17 31 17) 0xCB1103F1,
   item (.compareImmediate 17 64) 0xF101023F,
   item (.branchCondition .carrySet 3) 0x54000062,
   item (.shiftRight 16 16 17) 0x9AD12610,
   item (.branch 2) 0x14000002,
   -- too far
   item (.moveWide 16 0 0) 0xD2800010]

/-- The shift. -/
def shiftBlock (destination value amount : Register) : Block aarch64 where
  items := shiftItems value amount ++ shiftMoveItems destination
  encodes := by
    refine List.forall_mem_append.mpr ⟨?_, ?_⟩
    · simp only [shiftItems, List.forall_mem_cons]
      exact ⟨encodes_moveItem _ _, encodes_moveItem _ _, encodes rfl, encodes rfl, encodes rfl,
        encodes rfl, encodes rfl, encodes rfl, encodes rfl, encodes rfl, encodes rfl, encodes rfl,
        encodes rfl, encodes rfl, List.forall_mem_nil _⟩
    · unfold shiftMoveItems
      split_ifs
      · exact List.forall_mem_singleton.mpr (encodes_moveItem _ _)
      · exact List.forall_mem_nil _

/-- The emitter leaves the instructions of the block behind. -/
lemma run_shiftLeft (destination value amount : Register) (front : CodeBytes) :
    (Assembler.shiftLeft destination value amount).run front =
      (.ok (), front ++ (shiftBlock destination value amount).bytes) := by
  have hbytes : (shiftBlock destination value amount).bytes =
      (shiftItems value amount).flatMap (·.2) ++ (shiftMoveItems destination).flatMap (·.2) :=
    List.flatMap_append
  have hfront : front = front ++ [] := (List.append_nil front).symm
  rw [hbytes]
  conv_lhs => rw [hfront]
  simp (disch := norm_num [Int.tdiv]) only [Assembler.shiftLeft, moveRegister, compareImmediate,
    branchCondition, branch, emitRegisters, negate, subtract, moveImmediate_zero, StateT.run_bind,
    run_emitU32, run_branchWith, pure_bind, run_size, patchAll, patchConditionBranch, patchBranch,
    List.nil_append, List.length_append, length_leBytes, Nat.reduceAdd, run_patchWords, StateT.run_pure]
  simp only [List.append_assoc, patchBytes_field, patchBytes_skip]
  by_cases hdestination : destination = 16
  · have hmove : shiftMoveItems destination = [] := if_neg (not_not.mpr hdestination)
    have hscratch : ¬ destination ≠ kScratch0 := not_not.mpr hdestination
    simp only [hmove, hscratch, and_false, if_false]
    rfl
  · have hmove : shiftMoveItems destination = [moveItem destination 16] := if_pos hdestination
    have hscratch : destination ≠ kScratch0 := hdestination
    simp only [hmove, hscratch, Except.isOk, Except.toBool, ne_eq, not_false_eq_true, and_true,
      if_true, StateT.run_bind, run_emitU32, pure_bind, StateT.run_pure, List.append_assoc]
    rfl

/-- The shift is long enough for its branches. -/
lemma le_length_shiftBlock (destination value amount : Register) :
    14 ≤ (shiftBlock destination value amount).items.length :=
  List.length_append.symm ▸ Nat.le_add_right ..

/-- Writing a scratch register disturbs nothing. -/
lemma undisturbed_set {s₀ s : State} (h : integerTarget.Undisturbed s₀ s) {r : Register}
    (hr : r ∈ integerTarget.scratchRegisters) (value : Word) :
    integerTarget.Undisturbed s₀ (s.set r value) := by
  have hscratch : ∀ r ∈ integerTarget.scratchRegisters, r ≠ 31 := by decide
  refine ⟨fun q hq => ?_, (State.set_memory ..).trans h.memory⟩
  have hne : q ≠ r := fun heq => hq (heq ▸ hr)
  exact (State.set_registers _ (hscratch r hr) ..).trans ((if_neg hne).trans (h.others q hq))

section shift

variable {destination value amount : Register} {s₀ s : State} {x y result : Word}
  (h : integerTarget.Undisturbed s₀ s) (hdestination : destination ≠ 31)

include h hdestination

/-- The end of a shift: the result is moved to its place. -/
lemma completes_shift_done (hresult : s.read 16 = result) :
    (shiftBlock destination value amount).Completes 14 s
      (integerTarget.Holds s₀ destination result) := by
  by_cases hplace : destination = 16
  · have hlength : 14 = (shiftItems value amount ++ shiftMoveItems destination).length := by
      rw [shiftMoveItems, if_neg (not_not.mpr hplace)]
      rfl
    refine .done hlength ⟨?_, fun r _ => h.others r, h.memory⟩
    rw [hplace]
    exact hresult
  · have hmove : shiftMoveItems destination = [moveItem destination 16] := if_pos hplace
    have hitem : (shiftItems value amount ++ shiftMoveItems destination)[14]? =
        some (moveItem destination 16) := by
      rw [hmove]
      rfl
    have hlength : 15 = (shiftItems value amount ++ shiftMoveItems destination).length := by
      rw [hmove]
      rfl
    refine .next hitem rfl (.done hlength ⟨?_, fun r hr hscratch => ?_, ?_⟩)
    · refine (State.set_registers _ hdestination ..).trans ((if_pos rfl).trans ?_)
      rw [hresult]
      exact BitVec.zero_or
    · exact (State.set_registers _ hdestination ..).trans
        ((if_neg hr).trans (h.others r hscratch))
    · exact (State.set_memory ..).trans h.memory

/-- A shift that is too far. -/
lemma completes_shift_zero :
    (shiftBlock destination value amount).Completes 13 s
      (integerTarget.Holds s₀ destination 0) := by
  refine .next rfl rfl (completes_shift_done (undisturbed_set h (by decide) _) hdestination ?_)
  rw [State.read_set _ (by decide) (by decide), if_pos rfl]
  rfl

/-- The check of the range, and the shift. -/
lemma completes_shift_range (hx : s.read 16 = x) (hy : s.read 17 = y) (right : Bool) :
    (shiftBlock destination value amount).Completes (if right then 9 else 4) s
      (integerTarget.Holds s₀ destination (shiftTowards right x y)) := by
  let s' := s.compare (s.read 17) ((64 : BitVec 12).setWidth 64)
  have hcompared : integerTarget.Undisturbed s₀ s' := h.congr rfl rfl
  have hholds : Condition.holds s' .carrySet = decide (64 ≤ y.toNat) := by
    rw [← hy]
    rfl
  have hfar : Condition.holds s' .carrySet = true →
      (shiftBlock destination value amount).Completes 13 s'
        (integerTarget.Holds s₀ destination (shiftTowards right x y)) := by
    intro hrange
    rw [hholds, decide_eq_true_iff] at hrange
    rw [shiftTowards, if_pos hrange]
    exact completes_shift_zero hcompared hdestination
  have hnear : Condition.holds s' .carrySet = false → ∀ shifted : Word,
      (shifted = if right then x >>> (y.toNat % 64) else x <<< (y.toNat % 64)) →
      (shiftBlock destination value amount).Completes 14 (s'.set 16 shifted)
        (integerTarget.Holds s₀ destination (shiftTowards right x y)) := by
    rintro hrange shifted hshifted
    rw [hholds, decide_eq_false_iff_not] at hrange
    rw [shiftTowards, if_neg hrange, ← hshifted]
    refine completes_shift_done (undisturbed_set hcompared (by decide) _) hdestination ?_
    rw [State.read_set _ (by decide) (by decide), if_pos rfl]
  have hvalue : s'.read 16 = x := hx
  have hcount : s'.read 17 = y := hy
  have hzeroPath : 13 ≤ (shiftBlock destination value amount).items.length :=
    (Nat.le_succ 13).trans (le_length_shiftBlock ..)
  cases right with
  | true =>
      have hstep : aarch64.step (.shiftRight 16 16 17) 4 s' =
          .next (s'.set 16 (x >>> (y.toNat % 64))) := by
        rw [← hvalue, ← hcount]
        rfl
      refine .next rfl rfl (completes_branchCondition rfl hzeroPath rfl hfar fun hc =>
        .next rfl hstep (completes_branch rfl (le_length_shiftBlock ..) rfl ?_))
      exact hnear hc (x >>> (y.toNat % 64)) rfl
  | false =>
      have hstep : aarch64.step (.shiftLeft 16 16 17) 4 s' =
          .next (s'.set 16 (x <<< (y.toNat % 64))) := by
        rw [← hvalue, ← hcount]
        rfl
      refine .next rfl rfl (completes_branchCondition rfl hzeroPath rfl hfar fun hc =>
        .next rfl hstep (completes_branch rfl (le_length_shiftBlock ..) rfl ?_))
      exact hnear hc (x <<< (y.toNat % 64)) rfl

/-- From the first branch on, with the value and the amount in scratch registers. -/
lemma completes_shift_branches (hx : s.read 16 = x) (hy : s.read 17 = y) :
    (shiftBlock destination value amount).Completes 2 s
      (integerTarget.Holds s₀ destination (Ir.shiftLeft x y)) := by
  have hnegativePath : 8 ≤ (shiftBlock destination value amount).items.length :=
    le_trans (by decide) (le_length_shiftBlock ..)
  have hsign : Condition.holds (s.compare (s.read 17) 0) .lessThan = y.msb := by
    rw [holds_lessThan_compare_zero, hy]
  have hcompared : integerTarget.Undisturbed s₀ (s.compare (s.read 17) 0) := h.congr rfl rfl
  rw [shiftLeft_eq]
  refine .next rfl rfl (completes_branchCondition rfl hnegativePath rfl (fun hnegative => ?_)
    fun hnonnegative => ?_)
  · have hmsb : y.msb = true := hsign.symm.trans hnegative
    rw [if_pos hmsb]
    refine .next rfl rfl (completes_shift_range (undisturbed_set hcompared (by decide) _)
      hdestination ?_ ?_ true)
    · rw [State.read_set _ (by decide) (by decide), if_neg (by decide)]
      exact hx
    · rw [State.read_set _ (by decide) (by decide), if_pos rfl]
      show 0 - s.read 17 = -y
      rw [hy]
      exact BitVec.zero_sub y
  · have hmsb : ¬ y.msb = true := Bool.eq_false_iff.mp (hsign.symm.trans hnonnegative)
    rw [if_neg hmsb]
    exact completes_shift_range hcompared hdestination hx hy false

end shift

/-- **Shifts are exact**, for all registers that an allocation leaves them with. -/
lemma shiftLeft_exact {destination value amount : Register}
    (h : integerTarget.Assigns destination value amount) :
    integerTarget.LowersExactly (lowerInteger .shiftLeft destination value amount) destination
      value amount (IntegerOperation.evaluate .shiftLeft) := by
  have hne : ∀ r ∈ kScratch0 :: kAllocationRegisters, r ≠ 31 := by decide
  have hrhs : ∀ r ∈ kScratch1 :: kAllocationRegisters, r ≠ 16 ∧ r ≠ 31 := by decide
  -- the amount is read after the value has been moved
  have hamount := hrhs amount h.rhs
  refine IntegerTarget.lowersExactly_of_block (shiftBlock destination value amount)
    (run_shiftLeft destination value amount) fun s => ?_
  let s' := s.set 16 (0 ||| s.read value)
  have hread : s'.read amount = s.registers amount := by
    rw [State.read_set _ (by decide) hamount.2, if_neg hamount.1]
    exact if_neg hamount.2
  have hmoved : integerTarget.Undisturbed s (s'.set 17 (0 ||| s'.read amount)) :=
    undisturbed_set (undisturbed_set (.refl _ s) (by decide) _) (by decide) _
  refine .next rfl rfl (.next rfl rfl
    (completes_shift_branches hmoved (hne destination h.target) ?_ ?_))
  · rw [State.read_set _ (by decide) (by decide), if_neg (by decide),
      State.read_set _ (by decide) (by decide), if_pos rfl]
    exact BitVec.zero_or.trans (if_neg (hne value h.lhs))
  · rw [State.read_set _ (by decide) (by decide), if_pos rfl]
    exact BitVec.zero_or.trans hread

/-! ## Floor divisions -/

/-- A branch on zero with its displacement in words. -/
def branchZeroItem (source : Register) (words : BitVec 19) : Item :=
  item (.branchZero source words) (0xB4000000#32 ||| words.setWidth 32 <<< 5 ||| reg source)

/-- Floor arithmetic up to its last move. -/
def floorItems (lhs rhs : Register) (modulo : Bool) : List Item :=
  [moveItem 16 lhs,
   moveItem 17 rhs,
   moveItem 0 16,
   branchZeroItem 17 (if modulo then 10 else 11),
   item (.divide 16 16 17) 0x9AD10E10,
   item (.multiplySubtract 0 16 17 0) 0x9B118200,
   branchZeroItem 0 (if modulo then 5 else 6),
   item (.exclusiveOr 8 0 17) 0xCA110008,
   item (.compareImmediate 8 0) 0xF100011F,
   item (.branchCondition .greaterEqual (if modulo then 2 else 3))
     (if modulo then 0x5400004A else 0x5400006A)] ++
  -- the signs differ
  (if modulo then [item (.add 0 0 17) 0x8B110000]
   else [item (.moveWide 0 0 1) 0xD2800020, item (.subtract 16 16 0) 0xCB000210]) ++
  -- the result is known
  [moveItem 0 (if modulo then 0 else 16),
   item (.branch 2) 0x14000002,
   -- a division by zero
   item (.moveWide 0 0 0) 0xD2800000]

/-- The bytes of floor arithmetic encode its instructions. -/
lemma encodes_floorItems (lhs rhs : Register) (modulo : Bool) :
    ∀ item ∈ floorItems lhs rhs modulo, aarch64.Encodes item.1 item.2 := by
  cases modulo with
  | true =>
      simp only [floorItems, if_true, List.cons_append, List.nil_append, List.forall_mem_cons]
      exact ⟨encodes_moveItem _ _, encodes_moveItem _ _, encodes_moveItem _ _, encodes rfl,
        encodes rfl, encodes rfl, encodes rfl, encodes rfl, encodes rfl, encodes rfl, encodes rfl,
        encodes_moveItem _ _, encodes rfl, encodes rfl, List.forall_mem_nil _⟩
  | false =>
      simp only [floorItems, Bool.false_eq_true, if_false, List.cons_append, List.nil_append,
        List.forall_mem_cons]
      exact ⟨encodes_moveItem _ _, encodes_moveItem _ _, encodes_moveItem _ _, encodes rfl,
        encodes rfl, encodes rfl, encodes rfl, encodes rfl, encodes rfl, encodes rfl, encodes rfl,
        encodes rfl, encodes_moveItem _ _, encodes rfl, encodes rfl, List.forall_mem_nil _⟩

/-- Floor arithmetic. -/
def floorBlock (target lhs rhs : Register) (modulo : Bool) : Block aarch64 where
  items := floorItems lhs rhs modulo ++ [moveItem target 0]
  encodes := List.forall_mem_append.mpr
    ⟨encodes_floorItems _ _ _, List.forall_mem_singleton.mpr (encodes_moveItem _ _)⟩

/-- The emitter with the move that follows it leaves the block behind. -/
lemma run_lowerFloor (target lhs rhs : Register) (modulo : Bool) (front : CodeBytes) :
    (lowerFloor modulo target lhs rhs).run front =
      (.ok (), front ++ (floorBlock target lhs rhs modulo).bytes) := by
  have hbytes : (floorBlock target lhs rhs modulo).bytes =
      (floorItems lhs rhs modulo).flatMap (·.2) ++
        leBytes 4 (0xAA0003E0#32 ||| reg 0 <<< 16 ||| reg target) :=
    List.flatMap_append.trans (congrArg _ (List.flatMap_singleton ..))
  have hfront : front = front ++ [] := (List.append_nil front).symm
  rw [lowerFloor, floorArithmetic, hbytes]
  conv_lhs => rw [hfront]
  cases modulo <;>
  · simp (disch := norm_num [Int.tdiv]) only [floorCode, moveRegister, compareImmediate,
      branchCondition, branchZero, branch, emitRegisters, bitwiseXor, add, subtract,
      moveImmediate_zero, moveImmediate_one, StateT.run_bind, run_emitU32, run_branchWith,
      pure_bind, run_size, patchAll, patchConditionBranch, patchZeroBranch, patchBranch, if_true,
      Bool.false_eq_true, if_false, List.nil_append, List.length_append, length_leBytes,
      Nat.reduceAdd, run_patchWords, StateT.run_pure]
    simp only [List.append_assoc, patchBytes_field, patchBytes_skip]
    rfl

/-- Where the result is moved to the return register. -/
def resultIndex (modulo : Bool) : Nat := if modulo then 11 else 12

/-- Behind the instructions of a division. -/
def doneIndex (modulo : Bool) : Nat := if modulo then 14 else 15

/-- The length of floor arithmetic. -/
lemma length_floorBlock (target lhs rhs : Register) (modulo : Bool) :
    (floorBlock target lhs rhs modulo).items.length = doneIndex modulo + 1 := by
  cases modulo <;> rfl

section floor

variable {target lhs rhs : Register} {s₀ s : State} {modulo : Bool} {q r x y result : Word}
  (h : integerTarget.Undisturbed s₀ s) (htarget : target ≠ 31)

include h htarget

/-- The end of a division, with the result in the return register. -/
lemma completes_floor_done (hresult : s.read 0 = result) :
    (floorBlock target lhs rhs modulo).Completes (doneIndex modulo) s
      (integerTarget.Holds s₀ target result) := by
  have hend : (floorBlock target lhs rhs modulo).Completes (doneIndex modulo + 1)
      (s.set target (s.read 31 ||| s.read 0)) (integerTarget.Holds s₀ target result) := by
    refine .done (length_floorBlock ..).symm ⟨?_, fun r hr hscratch => ?_, ?_⟩
    · refine (State.set_registers _ htarget ..).trans ((if_pos rfl).trans ?_)
      exact BitVec.zero_or.trans hresult
    · exact (State.set_registers _ htarget ..).trans ((if_neg hr).trans (h.others r hscratch))
    · exact (State.set_memory ..).trans h.memory
  cases modulo with
  | true => exact .next rfl rfl hend
  | false => exact .next rfl rfl hend

/-- The result is moved to the return register. -/
lemma completes_floor_result (hresult : s.read (if modulo then 0 else 16) = result) :
    (floorBlock target lhs rhs modulo).Completes (resultIndex modulo) s
      (integerTarget.Holds s₀ target result) := by
  have hmoved : (s.set 0 (s.read 31 ||| s.read (if modulo then 0 else 16))).read 0 = result := by
    rw [State.read_set _ (by decide) (by decide), if_pos rfl]
    exact BitVec.zero_or.trans hresult
  have hend : (floorBlock target lhs rhs modulo).Completes (doneIndex modulo)
      (s.set 0 (s.read 31 ||| s.read (if modulo then 0 else 16)))
      (integerTarget.Holds s₀ target result) :=
    completes_floor_done (undisturbed_set h (by decide) _) htarget hmoved
  have hlength := length_floorBlock target lhs rhs modulo
  cases modulo with
  | true => exact .next rfl rfl (completes_branch rfl (hlength ▸ by decide) rfl hend)
  | false => exact .next rfl rfl (completes_branch rfl (hlength ▸ by decide) rfl hend)

/-- The quotient or the remainder, once the signs are known to differ. -/
lemma completes_floor_adjust (hq : s.read 16 = q) (hr : s.read 0 = r) (hy : s.read 17 = y) :
    (floorBlock target lhs rhs modulo).Completes 10 s
      (integerTarget.Holds s₀ target (if modulo then r + y else q - 1)) := by
  cases modulo with
  | true =>
      refine .next rfl rfl (completes_floor_result (undisturbed_set h (by decide) _) htarget ?_)
      show (s.set 0 (s.read 0 + s.read 17)).read 0 = r + y
      rw [State.read_set _ (by decide) (by decide), if_pos rfl, hr, hy]
  | false =>
      refine .next rfl rfl (.next rfl rfl (completes_floor_result
        (undisturbed_set (undisturbed_set h (by decide) _) (by decide) _) htarget ?_))
      let one : Word := (1 : BitVec 16).setWidth 64 <<< (16 * 0)
      show ((s.set 0 one).set 16 ((s.set 0 one).read 16 - (s.set 0 one).read 0)).read 16 = q - 1
      rw [State.read_set _ (by decide) (by decide), if_pos rfl,
        State.read_set _ (by decide) (by decide), if_neg (by decide),
        State.read_set _ (by decide) (by decide), if_pos rfl, hq]
      rfl

/-- The signs of the remainder and of the divisor decide. -/
lemma completes_floor_signs (hq : s.read 16 = q) (hr : s.read 0 = r) (hy : s.read 17 = y) :
    (floorBlock target lhs rhs modulo).Completes 6 s
      (integerTarget.Holds s₀ target (adjustTruncated modulo q r y)) := by
  have hlength := length_floorBlock target lhs rhs modulo
  have hresult : s.read (if modulo then 0 else 16) = if modulo then r else q := by
    cases modulo <;> simp [hq, hr]
  have hinside : resultIndex modulo ≤ (floorBlock target lhs rhs modulo).items.length := by
    rw [hlength]
    cases modulo <;> decide
  refine completes_branchZero (by rfl) hinside (by cases modulo <;> rfl) (fun hexact => ?_)
    fun hinexact => .next (by rfl) (by rfl) (.next (by rfl) (by rfl) ?_)
  · rw [adjustTruncated, if_neg fun hsigns => hsigns.1 (hr.symm.trans hexact)]
    exact completes_floor_result h htarget hresult
  let s₁ := s.set 8 (s.read 0 ^^^ s.read 17)
  let s₂ := s₁.compare (s₁.read 8) ((0 : BitVec 12).setWidth 64)
  have hcompared : integerTarget.Undisturbed s₀ s₂ :=
    (undisturbed_set h (r := 8) (by decide) _).congr rfl rfl
  have hread : ∀ p : Register, p ≠ 8 → p ≠ 31 → s₂.read p = s.read p := fun p hp hzero =>
    (State.read_set _ (by decide) hzero _).trans (if_neg hp)
  have hxor : s₁.read 8 = r ^^^ y := by
    rw [State.read_set _ (by decide) (by decide), if_pos rfl, hr, hy]
  have hsign : (r ^^^ y).msb = !Condition.holds s₂ .greaterEqual := by
    rw [← hxor, ← Bool.not_inj_iff, Bool.not_not]
    exact (holds_greaterEqual_compare_zero s₁ _).symm
  have hne : r ≠ 0 := fun heq => hinexact (hr.trans heq)
  refine completes_branchCondition (by rfl) hinside (by cases modulo <;> rfl) (fun hsame => ?_)
    fun hdiffer => ?_
  · have hmsb : ¬ (r ^^^ y).msb = true := by
      rw [hsame] at hsign
      exact Bool.eq_false_iff.mp hsign
    rw [adjustTruncated, if_neg fun hsigns => hmsb hsigns.2]
    refine completes_floor_result hcompared htarget (.trans (hread _ ?_ ?_) hresult)
    · cases modulo <;> decide
    · cases modulo <;> decide
  · have hmsb : (r ^^^ y).msb = true := by
      rw [hdiffer] at hsign
      exact hsign
    rw [adjustTruncated, if_pos ⟨hne, hmsb⟩]
    exact completes_floor_adjust hcompared htarget ((hread 16 (by decide) (by decide)).trans hq)
      ((hread 0 (by decide) (by decide)).trans hr) ((hread 17 (by decide) (by decide)).trans hy)

/-- From the test of the divisor on. The machine does not trap on any quotient. -/
lemma completes_floor_divide (hx : s.read 16 = x) (hr : s.read 0 = x) (hy : s.read 17 = y) :
    (floorBlock target lhs rhs modulo).Completes 3 s
      (integerTarget.Holds s₀ target (floorWord modulo x y)) := by
  have hlength := length_floorBlock target lhs rhs modulo
  have hinside : (if modulo then 13 else 14) ≤ (floorBlock target lhs rhs modulo).items.length := by
    rw [hlength]
    cases modulo <;> decide
  refine completes_branchZero (by rfl) hinside (by cases modulo <;> rfl) (fun hzero => ?_)
    fun hnonzero => .next (by rfl) (by rfl) (.next (by rfl) (by rfl) ?_)
  · have hdivisor : y = 0 := hy.symm.trans hzero
    have hend : ∀ b : Bool, (floorBlock target lhs rhs b).Completes (doneIndex b)
        (s.set 0 0) (integerTarget.Holds s₀ target 0) := fun b =>
      completes_floor_done (undisturbed_set h (by decide) _) htarget
        (State.read_set _ (by decide) (by decide) _)
    rw [hdivisor, floorWord_zero]
    cases modulo with
    | true => exact .next rfl rfl (hend true)
    | false => exact .next rfl rfl (hend false)
  · have hdivisor : y ≠ 0 := fun heq => hnonzero (hy.trans heq)
    let s₁ := s.set 16 (x.sdiv y)
    have hquotient : s.set 16 ((s.read 16).sdiv (s.read 17)) = s₁ := by rw [hx, hy]
    have hread : ∀ p : Register, p ≠ 16 → p ≠ 31 → s₁.read p = s.read p := fun p hp hzero =>
      (State.read_set _ (by decide) hzero _).trans (if_neg hp)
    have hvalue : s₁.read 16 = x.sdiv y := by
      rw [State.read_set _ (by decide) (by decide), if_pos rfl]
    rw [hquotient]
    let s₂ := s₁.set 0 (x.srem y)
    have hremainder : s₁.set 0 (s₁.read 0 - s₁.read 16 * s₁.read 17) = s₂ := by
      rw [hvalue, hread 0 (by decide) (by decide), hread 17 (by decide) (by decide), hr, hy,
        sub_sdiv_mul]
    rw [hremainder]
    have hdivided : integerTarget.Undisturbed s₀ s₂ :=
      undisturbed_set (undisturbed_set h (by decide) _) (by decide) _
    rw [floorWord_eq hdivisor]
    refine completes_floor_signs hdivided htarget ?_ ?_ ?_
    · rw [State.read_set _ (by decide) (by decide), if_neg (by decide), hvalue]
    · rw [State.read_set _ (by decide) (by decide), if_pos rfl]
    · rw [State.read_set _ (by decide) (by decide), if_neg (by decide),
        hread 17 (by decide) (by decide), hy]

end floor

/-- **Floor divisions are exact**, for all registers that an allocation leaves them with. -/
lemma floor_exact (modulo : Bool) {target lhs rhs : Register}
    (h : integerTarget.Assigns target lhs rhs) :
    integerTarget.LowersExactly (lowerFloor modulo target lhs rhs) target lhs rhs
      (floorWord modulo) := by
  have hne : ∀ r ∈ kScratch0 :: kAllocationRegisters, r ≠ 31 := by decide
  have hrhs : ∀ r ∈ kScratch1 :: kAllocationRegisters, r ≠ 16 ∧ r ≠ 31 := by decide
  -- the divisor is read after the dividend has been moved
  have hdivisor := hrhs rhs h.rhs
  refine IntegerTarget.lowersExactly_of_block (floorBlock target lhs rhs modulo)
    (run_lowerFloor target lhs rhs modulo) fun s => ?_
  let s₁ := s.set 16 (0 ||| s.read lhs)
  let s₂ := s₁.set 17 (0 ||| s₁.read rhs)
  let s₃ := s₂.set 0 (0 ||| s₂.read 16)
  have hmoved : integerTarget.Undisturbed s s₃ := by
    refine undisturbed_set (undisturbed_set (undisturbed_set (.refl _ s) ?_ _) ?_ _) ?_ _
    all_goals decide
  have hdividend : s₂.read 16 = s.registers lhs := by
    rw [State.read_set _ (by decide) (by decide), if_neg (by decide),
      State.read_set _ (by decide) (by decide), if_pos rfl]
    exact BitVec.zero_or.trans (if_neg (hne lhs h.lhs))
  refine .next rfl rfl (.next rfl rfl (.next rfl rfl
    (completes_floor_divide hmoved (hne target h.target) ?_ ?_ ?_)))
  · rw [State.read_set _ (by decide) (by decide), if_neg (by decide)]
    exact hdividend
  · rw [State.read_set _ (by decide) (by decide), if_pos rfl]
    exact BitVec.zero_or.trans hdividend
  · rw [State.read_set _ (by decide) (by decide), if_neg (by decide),
      State.read_set _ (by decide) (by decide), if_pos rfl]
    refine BitVec.zero_or.trans ?_
    rw [State.read_set _ (by decide) hdivisor.2, if_neg hdivisor.1]
    exact if_neg hdivisor.2

/-- **Integer lowering on AArch64 is exact.** -/
lemma lowerInteger_exact (o : IntegerOperation) {target lhs rhs : Register}
    (h : integerTarget.Assigns target lhs rhs) :
    integerTarget.LowersExactly (lowerInteger o target lhs rhs) target lhs rhs o.evaluate := by
  cases o with
  | floorDivide => exact floor_exact false h
  | floorModulo => exact floor_exact true h
  | shiftLeft => exact shiftLeft_exact h

end UniJit.Jit.AArch64
