import UniJit.Jit.IntegerLowering
import UniJit.Lib.RiscV

/-!
# Shifts and floor divisions on RISC-V

The machine divides without trapping and shifts by the low bits of an amount, so only the range of
a shift, a zero divisor and the signs of a division are branched on. Branches compare registers:
a range is first made a register with `sltiu`.

`shiftBlock` and `floorBlock` are the instructions that the emitters leave behind, with their
patched displacements; `lowerInteger_exact` follows every path through them.
-/

namespace UniJit.Jit.RiscV

open UniJit.Ir UniJit.Lib UniJit.Lib.RiscV UniJit.Lib.MachineCode UniJit.Jit.CodeBuffer

/-! ## Registers -/

/-- The register that reads 0. -/
def kZero : Register := 0
/-- The register of the first argument and of the result. -/
def kArgumentAndReturn : Register := 10
/-- The first scratch register. -/
def kScratch0 : Register := 6
/-- The second scratch register. -/
def kScratch1 : Register := 7
/-- The third scratch register. -/
def kScratch2 : Register := 29

/-- The registers that values are allocated to. -/
def kAllocationRegisters : List Register := [11, 12, 13, 14, 15, 16, 17, 28]

/-! ## Emitters -/

namespace Assembler

/-- A register as a field of an instruction. -/
def reg (value : Register) : BitVec 32 := BitVec.ofNat 32 value

/-- Encodes an instruction with an immediate. -/
def encodeI (immediate : BitVec 32) (source : Register) (function : BitVec 32)
    (destination : Register) (opcode : BitVec 32) : BitVec 32 :=
  (immediate &&& 0xFFF) <<< 20 ||| reg source <<< 15 ||| function <<< 12 |||
    reg destination <<< 7 ||| opcode

/-- Encodes a branch. -/
def encodeB (bits : BitVec 32) (rhs lhs : Register) (function opcode : BitVec 32) : BitVec 32 :=
  ((bits >>> 12) &&& 0x1) <<< 31 ||| ((bits >>> 5) &&& 0x3F) <<< 25 ||| reg rhs <<< 20 |||
    reg lhs <<< 15 ||| function <<< 12 ||| ((bits >>> 1) &&& 0xF) <<< 8 |||
    ((bits >>> 11) &&& 0x1) <<< 7 ||| opcode

/-- Encodes a jump. -/
def encodeJ (bits : BitVec 32) (destination : Register) (opcode : BitVec 32) : BitVec 32 :=
  ((bits >>> 20) &&& 0x1) <<< 31 ||| ((bits >>> 1) &&& 0x3FF) <<< 21 |||
    ((bits >>> 11) &&& 0x1) <<< 20 ||| ((bits >>> 12) &&& 0xFF) <<< 12 |||
    reg destination <<< 7 ||| opcode

/-- Encodes an instruction on registers. -/
def encodeR (function7 : BitVec 32) (rhs lhs : Register) (function3 : BitVec 32)
    (destination : Register) (opcode : BitVec 32) : BitVec 32 :=
  function7 <<< 25 ||| reg rhs <<< 20 ||| reg lhs <<< 15 ||| function3 <<< 12 |||
    reg destination <<< 7 ||| opcode

/-- Emits an instruction with an immediate. -/
def emitI (immediate : BitVec 32) (source : Register) (function : BitVec 32)
    (destination : Register) (opcode : BitVec 32) : Emit Unit :=
  emitU32 (encodeI immediate source function destination opcode)

/-- Emits a branch. -/
def emitB (bits : BitVec 32) (rhs lhs : Register) (function opcode : BitVec 32) : Emit Unit :=
  emitU32 (encodeB bits rhs lhs function opcode)

/-- Emits an instruction on registers. -/
def emitR (function7 : BitVec 32) (rhs lhs : Register) (function3 : BitVec 32)
    (destination : Register) (opcode : BitVec 32) : Emit Unit :=
  emitU32 (encodeR function7 rhs lhs function3 destination opcode)

/-- Emits a move. -/
def moveRegister (destination source : Register) : Emit Unit := emitI 0 source 0 destination 0x13

/-- Emits an addition. -/
def add (destination lhs rhs : Register) : Emit Unit := emitR 0x00 rhs lhs 0 destination 0x33

/-- Emits a subtraction. -/
def subtract (destination lhs rhs : Register) : Emit Unit := emitR 0x20 rhs lhs 0 destination 0x33

/-- Emits a negation. -/
def negate (destination source : Register) : Emit Unit := subtract destination kZero source

/-- Emits an exclusive disjunction. -/
def bitwiseXor (destination lhs rhs : Register) : Emit Unit := emitR 0x00 rhs lhs 4 destination 0x33

/-- Emits an unsigned comparison with an immediate. -/
def setUnsignedLessThanImmediate (destination source : Register) (immediate : BitVec 32) :
    Emit Unit :=
  emitI immediate source 3 destination 0x13

/-- Emits a shift. -/
def shiftVariable (destination value amount : Register) (right : Bool) : Emit Unit :=
  emitR 0x00 amount value (if right then 5 else 1) destination 0x33

/-- Emits a jump to be patched. -/
def branch : Emit Nat := do
  let offset ← size
  emitU32 0x0000006F
  pure offset

/-- A branch on one register, without its displacement. -/
def branchOn (function : BitVec 32) (source : Register) : Emit Nat := do
  let offset ← size
  emitB 0 kZero source function 0x63
  pure offset

/-- Emits a branch on zero to be patched. -/
def branchZero (source : Register) : Emit Nat := branchOn 0 source

/-- Emits a branch on a negative word to be patched. -/
def branchNegative (source : Register) : Emit Nat := branchOn 4 source

/-- Emits a branch on a nonnegative word to be patched. -/
def branchNonnegative (source : Register) : Emit Nat := branchOn 5 source

/-- Patch a branch with a displacement in bytes. -/
def patchDelta (tooFar : String) (lower upper : Int) (encode : BitVec 32 → BitVec 32)
    (offset target : Nat) : Emit (Except Status Unit) :=
  let delta : Int := (target : Int) - offset
  if delta % 2 ≠ 0 then
    pure (.error ⟨.codeGenerationFailed, "RISC-V branch target is not halfword aligned", 0⟩)
  else if delta < lower ∨ upper < delta then pure (.error ⟨.resourceExhausted, tooFar, 0⟩)
  else do
    patchU32 offset (encode (BitVec.ofInt 32 delta))
    pure (.ok ())

/-- Sets the target of a branch. -/
def patchConditionalBranch (offset target : Nat) (rhs lhs : Register) (function : BitVec 32) :
    Emit (Except Status Unit) :=
  patchDelta "RISC-V conditional branch exceeds its encoding range" (-4096) 4094
    (fun bits => encodeB bits rhs lhs function 0x63) offset target

/-- A branch without a condition. -/
def patchBranch (offset target : Nat) : Emit (Except Status Unit) :=
  patchDelta "RISC-V jump exceeds its encoding range" (-2 ^ 20) (2 ^ 20 - 2)
    (fun bits => encodeJ bits kZero 0x6F) offset target

/-! ## The sequences -/

/-- Emits Lua's shift. -/
def shiftLeft (destination value amount : Register) : Emit (Except Status Unit) := do
  moveRegister kScratch0 value
  moveRegister kScratch1 amount
  let negative ← branchNegative kScratch1
  setUnsignedLessThanImmediate kScratch2 kScratch1 64
  let positiveOvershift ← branchZero kScratch2
  shiftVariable kScratch0 kScratch0 kScratch1 false
  let positiveDone ← branch
  let negativePath ← size
  negate kScratch1 kScratch1
  setUnsignedLessThanImmediate kScratch2 kScratch1 64
  let negativeOvershift ← branchZero kScratch2
  shiftVariable kScratch0 kScratch0 kScratch1 true
  let negativeDone ← branch
  let zeroPath ← size
  moveRegister kScratch0 kZero
  let done ← size
  let status ← patchAll
    [patchConditionalBranch negative negativePath kZero kScratch1 4,
     patchConditionalBranch positiveOvershift zeroPath kZero kScratch2 0,
     patchBranch positiveDone done,
     patchConditionalBranch negativeOvershift zeroPath kZero kScratch2 0,
     patchBranch negativeDone done]
  if status.isOk ∧ destination ≠ kScratch0 then moveRegister destination kScratch0
  pure status

/-- The code of a division, and the patches of its branches in the order they are made. -/
def floorCode (destination lhs rhs : Register) (modulo : Bool) :
    Emit (List (Emit (Except Status Unit))) := do
  moveRegister kScratch0 lhs
  moveRegister kScratch1 rhs
  moveRegister destination kScratch0
  let zeroDivisor ← branchZero kScratch1
  emitR 0x01 kScratch1 kScratch0 4 kScratch0 0x33
  emitR 0x01 kScratch1 destination 6 destination 0x33
  let exact ← branchZero destination
  bitwiseXor kScratch2 destination kScratch1
  let sameSign ← branchNonnegative kScratch2
  if modulo then add destination destination kScratch1 else emitI (-1) kScratch0 0 kScratch0 0x13
  let result ← size
  if modulo = false then moveRegister destination kScratch0
  let normalDone ← branch
  let zeroPath ← size
  moveRegister destination kZero
  let done ← size
  pure
    [patchConditionalBranch zeroDivisor zeroPath kZero kScratch1 0,
     patchConditionalBranch exact result kZero destination 0,
     patchConditionalBranch sameSign result kZero kScratch2 5, patchBranch normalDone done]

/-- Emits floor division or modulo. -/
def floorArithmetic (destination lhs rhs : Register) (modulo : Bool) :
    Emit (Except Status Unit) := do
  patchAll (← floorCode destination lhs rhs modulo)

/-- The quotients and remainders pass through the return register. -/
def lowerFloor (modulo : Bool) (target lhs rhs : Register) : Emit (Except Status Unit) := do
  match ← floorArithmetic kArgumentAndReturn lhs rhs modulo with
  | .error status => pure (.error status)
  | .ok () =>
      moveRegister target kArgumentAndReturn
      pure (.ok ())

/-- Emits an integer operation. -/
def lowerInteger : IntegerOperation → Register → Register → Register → Emit (Except Status Unit)
  | .floorDivide => lowerFloor false
  | .floorModulo => lowerFloor true
  | .shiftLeft => shiftLeft

end Assembler

open Assembler

/-! ## The back end -/

/-- What the sequences use of the machine. -/
def integerTarget : IntegerTarget Instruction State Register where
  isa := riscv
  registers := State.registers
  memory := State.memory
  allocationRegisters := kAllocationRegisters
  scratch0 := kScratch0
  scratch1 := kScratch1
  scratchRegisters := [kArgumentAndReturn, kScratch0, kScratch1, kScratch2]
  disjoint := by decide

/-- An instruction with its bytes. -/
abbrev Item := Instruction × CodeBytes

/-- An instruction with its word. -/
def item (i : Instruction) (word : BitVec 32) : Item := (i, leBytes 4 word)

/-- A move with its bytes. -/
def moveItem (destination source : Register) : Item :=
  item (.addImmediate destination source 0) (encodeI 0 source 0 destination 0x13)

/-- The bytes of a move encode it. -/
lemma encodes_moveItem (destination source : Register) :
    riscv.Encodes (moveItem destination source).1 (moveItem destination source).2 := by
  have hdecode : ∀ destination source : Register,
      decodeWord (encodeI 0 source 0 destination 0x13) =
        some (.addImmediate destination source 0) := by decide +kernel
  exact encodes (hdecode destination source)

/-- What a move reads. -/
lemma read_move (s : State) (r : Register) :
    s.read r + (0 : BitVec 12).signExtend 64 = s.read r := BitVec.add_zero _

/-! ## Running the emitters -/

/-- What emitting a jump leaves. -/
lemma run_branch (front code : CodeBytes) :
    branch.run (front ++ code) =
      pure (front.length + code.length, front ++ (code ++ leBytes 4 (0x0000006F : BitVec 32))) := by
  simp only [branch, StateT.run_bind, run_size, pure_bind, run_emitU32, StateT.run_pure]

/-- What emitting a branch leaves. -/
lemma run_branchOn (front code : CodeBytes) (function : BitVec 32) (source : Register) :
    (branchOn function source).run (front ++ code) =
      pure (front.length + code.length,
        front ++ (code ++ leBytes 4 (encodeB 0 kZero source function 0x63))) := by
  simp only [branchOn, emitB, StateT.run_bind, run_size, pure_bind, run_emitU32, StateT.run_pure]

/-- A patch that reaches its target exchanges the branch. -/
lemma run_patchDelta (front code : CodeBytes) {tooFar : String} {lower upper : Int}
    {encode : BitVec 32 → BitVec 32} {offset target : Nat}
    (haligned : ((target : Int) - offset) % 2 = 0) (hlower : lower ≤ (target : Int) - offset)
    (hupper : (target : Int) - offset ≤ upper) :
    (patchDelta tooFar lower upper encode (front.length + offset)
      (front.length + target)).run (front ++ code) =
        pure (.ok (), front ++ patchBytes
          (leBytes 4 (encode (BitVec.ofInt 32 ((target : Int) - offset)))) offset code) := by
  have hdelta : ((front.length + target : Nat) : Int) - (front.length + offset : Nat) =
      (target : Int) - offset := by omega
  have hrange : ¬ ((target : Int) - offset < lower ∨ upper < (target : Int) - offset) :=
    not_or.mpr ⟨not_lt.mpr hlower, not_lt.mpr hupper⟩
  simp only [patchDelta, hdelta, haligned, ne_eq, not_true_eq_false, if_false, hrange,
    StateT.run_bind, run_patchU32, pure_bind, StateT.run_pure]

/-- Writing a scratch register disturbs nothing. -/
lemma undisturbed_set {s₀ s : State} (h : integerTarget.Undisturbed s₀ s) {r : Register}
    (hr : r ∈ integerTarget.scratchRegisters) (value : Word) :
    integerTarget.Undisturbed s₀ (s.set r value) := by
  have hscratch : ∀ r ∈ integerTarget.scratchRegisters, r ≠ 0 := by decide
  refine ⟨fun q hq => ?_, (State.set_memory ..).trans h.memory⟩
  have hne : q ≠ r := fun heq => hq (heq ▸ hr)
  exact (State.set_registers _ (hscratch r hr) ..).trans ((if_neg hne).trans (h.others q hq))

/-! ## Shifts -/

/-- The move of a shifted word to its place. -/
def shiftMoveItems (destination : Register) : List Item :=
  if destination ≠ 6 then [moveItem destination 6] else []

/-- The shift up to its last move. -/
def shiftItems (value amount : Register) : List Item :=
  [moveItem 6 value,
   moveItem 7 amount,
   item (.branch .lessThan 7 0 10) (encodeB 20 0 7 4 0x63),
   item (.setLessThanUnsignedImmediate 29 7 64) (encodeI 64 7 3 29 0x13),
   item (.branch .equal 29 0 16) (encodeB 32 0 29 0 0x63),
   item (.shiftLeft 6 6 7) (encodeR 0x00 7 6 1 6 0x33),
   item (.jump 14) (encodeJ 28 0 0x6F),
   -- a negative amount
   item (.subtract 7 0 7) (encodeR 0x20 7 0 0 7 0x33),
   item (.setLessThanUnsignedImmediate 29 7 64) (encodeI 64 7 3 29 0x13),
   item (.branch .equal 29 0 6) (encodeB 12 0 29 0 0x63),
   item (.shiftRight 6 6 7) (encodeR 0x00 7 6 5 6 0x33),
   item (.jump 4) (encodeJ 8 0 0x6F),
   -- too far
   moveItem 6 0]

/-- The shift. -/
def shiftBlock (destination value amount : Register) : Block riscv where
  items := shiftItems value amount ++ shiftMoveItems destination
  encodes := by
    refine List.forall_mem_append.mpr ⟨?_, ?_⟩
    · simp only [shiftItems, List.forall_mem_cons]
      exact ⟨encodes_moveItem _ _, encodes_moveItem _ _, encodes rfl, encodes rfl, encodes rfl,
        encodes rfl, encodes rfl, encodes rfl, encodes rfl, encodes rfl, encodes rfl, encodes rfl,
        encodes_moveItem _ _, List.forall_mem_nil _⟩
    · unfold shiftMoveItems
      split_ifs
      · exact List.forall_mem_singleton.mpr (encodes_moveItem _ _)
      · exact List.forall_mem_nil _

/-- The emitter leaves the instructions of the block behind. -/
lemma run_shiftLeft (destination value amount : Register) (front : CodeBytes) :
    (Assembler.shiftLeft destination value amount).run front =
      (.ok (), front ++ (shiftBlock destination value amount).bytes) := by
  have hbytes : (shiftBlock destination value amount).bytes =
      (shiftItems value amount).flatMap (·.2) ++ (shiftMoveItems destination).flatMap (·.2) :=
    List.flatMap_append
  have hfront : front = front ++ [] := (List.append_nil front).symm
  rw [hbytes]
  conv_lhs => rw [hfront]
  simp (disch := norm_num) only [Assembler.shiftLeft, moveRegister, setUnsignedLessThanImmediate,
    branchNegative, branchZero, shiftVariable, emitI, emitR, negate, subtract, StateT.run_bind,
    run_emitU32, run_branchOn, run_branch, pure_bind, run_size, patchAll, patchConditionalBranch,
    patchBranch, List.nil_append, List.length_append, length_leBytes, Nat.reduceAdd,
    run_patchDelta, StateT.run_pure]
  simp only [List.append_assoc, patchBytes_field, patchBytes_skip]
  by_cases hdestination : destination = 6
  · have hmove : shiftMoveItems destination = [] := if_neg (not_not.mpr hdestination)
    have hscratch : ¬ destination ≠ kScratch0 := not_not.mpr hdestination
    simp only [hmove, hscratch, and_false, if_false]
    rfl
  · have hmove : shiftMoveItems destination = [moveItem destination 6] := if_pos hdestination
    have hscratch : destination ≠ kScratch0 := hdestination
    simp only [hmove, hscratch, Except.isOk, Except.toBool, ne_eq, not_false_eq_true, and_true,
      if_true, StateT.run_bind, run_emitU32, pure_bind, StateT.run_pure, List.append_assoc]
    rfl

/-- The shift is long enough for its branches. -/
lemma le_length_shiftBlock (destination value amount : Register) :
    13 ≤ (shiftBlock destination value amount).items.length :=
  List.length_append.symm ▸ Nat.le_add_right ..

section shift

variable {destination value amount : Register} {s₀ s : State} {x y result : Word}
  (h : integerTarget.Undisturbed s₀ s) (hdestination : destination ≠ 0)

include h hdestination

/-- The end of a shift: the result is moved to its place. -/
lemma completes_shift_done (hresult : s.read 6 = result) :
    (shiftBlock destination value amount).Completes 13 s
      (integerTarget.Holds s₀ destination result) := by
  by_cases hplace : destination = 6
  · have hlength : 13 = (shiftItems value amount ++ shiftMoveItems destination).length := by
      rw [shiftMoveItems, if_neg (not_not.mpr hplace)]
      rfl
    refine .done hlength ⟨?_, fun r _ => h.others r, h.memory⟩
    rw [hplace]
    exact hresult
  · have hmove : shiftMoveItems destination = [moveItem destination 6] := if_pos hplace
    have hitem : (shiftItems value amount ++ shiftMoveItems destination)[13]? =
        some (moveItem destination 6) := by
      rw [hmove]
      rfl
    have hlength : 14 = (shiftItems value amount ++ shiftMoveItems destination).length := by
      rw [hmove]
      rfl
    refine .next hitem rfl (.done hlength ⟨?_, fun r hr hscratch => ?_, ?_⟩)
    · refine (State.set_registers _ hdestination ..).trans ((if_pos rfl).trans ?_)
      exact (read_move s 6).trans hresult
    · exact (State.set_registers _ hdestination ..).trans
        ((if_neg hr).trans (h.others r hscratch))
    · exact (State.set_memory ..).trans h.memory

/-- A shift that is too far. -/
lemma completes_shift_zero :
    (shiftBlock destination value amount).Completes 12 s
      (integerTarget.Holds s₀ destination 0) := by
  refine .next rfl rfl (completes_shift_done (undisturbed_set h (by decide) _) hdestination ?_)
  rw [State.read_set _ (by decide) (by decide), if_pos rfl]
  exact read_move s 0

/-- The check of the range, and the shift. -/
lemma completes_shift_range (hx : s.read 6 = x) (hy : s.read 7 = y) (right : Bool) :
    (shiftBlock destination value amount).Completes (if right then 8 else 3) s
      (integerTarget.Holds s₀ destination (shiftTowards right x y)) := by
  let inRange : Word := if (s.read 7).ult ((64 : BitVec 12).signExtend 64) then 1 else 0
  let s' := s.set 29 inRange
  have hcompared : integerTarget.Undisturbed s₀ s' := undisturbed_set h (by decide) _
  have hread : ∀ r : Register, r ≠ 29 → r ≠ 0 → s'.read r = s.read r := fun r hr hzero =>
    (State.read_set _ (by decide) hzero _).trans (if_neg hr)
  have hholds : Condition.holds (s'.read 29) (s'.read 0) .equal = decide (64 ≤ y.toNat) := by
    rw [State.read_set _ (by decide) (by decide), if_pos rfl]
    have hflag : inRange = if y.toNat < 64 then 1 else 0 := by
      rw [← hy]
      exact if_congr decide_eq_true_iff rfl rfl
    show (inRange == 0) = decide (64 ≤ y.toNat)
    rw [hflag]
    by_cases hrange : y.toNat < 64
    · rw [if_pos hrange, decide_eq_false (not_le.mpr hrange)]
      rfl
    · rw [if_neg hrange, decide_eq_true (not_lt.mp hrange)]
      rfl
  have hfar : Condition.holds (s'.read 29) (s'.read 0) .equal = true →
      (shiftBlock destination value amount).Completes 12 s'
        (integerTarget.Holds s₀ destination (shiftTowards right x y)) := by
    intro hrange
    rw [hholds, decide_eq_true_iff] at hrange
    rw [shiftTowards, if_pos hrange]
    exact completes_shift_zero hcompared hdestination
  have hnear : Condition.holds (s'.read 29) (s'.read 0) .equal = false → ∀ shifted : Word,
      (shifted = if right then x >>> (y.toNat % 64) else x <<< (y.toNat % 64)) →
      (shiftBlock destination value amount).Completes 13 (s'.set 6 shifted)
        (integerTarget.Holds s₀ destination (shiftTowards right x y)) := by
    rintro hrange shifted hshifted
    rw [hholds, decide_eq_false_iff_not] at hrange
    rw [shiftTowards, if_neg hrange, ← hshifted]
    refine completes_shift_done (undisturbed_set hcompared (by decide) _) hdestination ?_
    rw [State.read_set _ (by decide) (by decide), if_pos rfl]
  have hvalue : s'.read 6 = x := (hread 6 (by decide) (by decide)).trans hx
  have hcount : s'.read 7 = y := (hread 7 (by decide) (by decide)).trans hy
  have hzeroPath : 12 ≤ (shiftBlock destination value amount).items.length :=
    (Nat.le_succ 12).trans (le_length_shiftBlock ..)
  cases right with
  | true =>
      have hstep : riscv.step (.shiftRight 6 6 7) 4 s' =
          .next (s'.set 6 (x >>> (y.toNat % 64))) := by
        rw [← hvalue, ← hcount]
        rfl
      refine .next rfl rfl (completes_branch rfl hzeroPath rfl hfar fun hc =>
        .next rfl hstep (completes_jump rfl (le_length_shiftBlock ..) rfl ?_))
      exact hnear hc (x >>> (y.toNat % 64)) rfl
  | false =>
      have hstep : riscv.step (.shiftLeft 6 6 7) 4 s' =
          .next (s'.set 6 (x <<< (y.toNat % 64))) := by
        rw [← hvalue, ← hcount]
        rfl
      refine .next rfl rfl (completes_branch rfl hzeroPath rfl hfar fun hc =>
        .next rfl hstep (completes_jump rfl (le_length_shiftBlock ..) rfl ?_))
      exact hnear hc (x <<< (y.toNat % 64)) rfl

/-- From the first branch on, with the value and the amount in scratch registers. -/
lemma completes_shift_branches (hx : s.read 6 = x) (hy : s.read 7 = y) :
    (shiftBlock destination value amount).Completes 2 s
      (integerTarget.Holds s₀ destination (Ir.shiftLeft x y)) := by
  have hnegativePath : 7 ≤ (shiftBlock destination value amount).items.length :=
    le_trans (by decide) (le_length_shiftBlock ..)
  have hsign : Condition.holds (s.read 7) (s.read 0) .lessThan = y.msb := by
    rw [hy]
    exact BitVec.slt_zero_eq_msb
  rw [shiftLeft_eq]
  refine completes_branch rfl hnegativePath rfl (fun hnegative => ?_) fun hnonnegative => ?_
  · have hmsb : y.msb = true := hsign.symm.trans hnegative
    rw [if_pos hmsb]
    refine .next rfl rfl (completes_shift_range (undisturbed_set h (by decide) _)
      hdestination ?_ ?_ true)
    · rw [State.read_set _ (by decide) (by decide), if_neg (by decide)]
      exact hx
    · rw [State.read_set _ (by decide) (by decide), if_pos rfl]
      show 0 - s.read 7 = -y
      rw [hy]
      exact BitVec.zero_sub y
  · have hmsb : ¬ y.msb = true := Bool.eq_false_iff.mp (hsign.symm.trans hnonnegative)
    rw [if_neg hmsb]
    exact completes_shift_range h hdestination hx hy false

end shift

/-- **Shifts are exact**, for all registers that an allocation leaves them with. -/
lemma shiftLeft_exact {destination value amount : Register}
    (h : integerTarget.Assigns destination value amount) :
    integerTarget.LowersExactly (lowerInteger .shiftLeft destination value amount) destination
      value amount (IntegerOperation.evaluate .shiftLeft) := by
  have hne : ∀ r ∈ kScratch0 :: kAllocationRegisters, r ≠ 0 := by decide
  have hrhs : ∀ r ∈ kScratch1 :: kAllocationRegisters, r ≠ 6 ∧ r ≠ 0 := by decide
  -- the amount is read after the value has been moved
  have hamount := hrhs amount h.rhs
  refine IntegerTarget.lowersExactly_of_block (shiftBlock destination value amount)
    (run_shiftLeft destination value amount) fun s => ?_
  let s' := s.set 6 (s.read value + (0 : BitVec 12).signExtend 64)
  have hread : s'.read amount = s.registers amount := by
    rw [State.read_set _ (by decide) hamount.2, if_neg hamount.1]
    exact if_neg hamount.2
  have hmoved : integerTarget.Undisturbed s
      (s'.set 7 (s'.read amount + (0 : BitVec 12).signExtend 64)) :=
    undisturbed_set (undisturbed_set (.refl _ s) (by decide) _) (by decide) _
  refine .next rfl rfl (.next rfl rfl
    (completes_shift_branches hmoved (hne destination h.target) ?_ ?_))
  · rw [State.read_set _ (by decide) (by decide), if_neg (by decide),
      State.read_set _ (by decide) (by decide), if_pos rfl, read_move]
    exact if_neg (hne value h.lhs)
  · rw [State.read_set _ (by decide) (by decide), if_pos rfl]
    exact (read_move s' amount).trans hread

/-! ## Floor divisions -/

/-- A branch of one register on zero, with its displacement in halves. -/
def branchZeroItem (source : Register) (halves : BitVec 12) : Item :=
  item (.branch .equal source 0 halves)
    (encodeB (BitVec.ofNat 32 (2 * halves.toNat)) 0 source 0 0x63)

/-- Floor arithmetic up to its last move. -/
def floorItems (lhs rhs : Register) (modulo : Bool) : List Item :=
  [moveItem 6 lhs,
   moveItem 7 rhs,
   moveItem 10 6,
   branchZeroItem 7 (if modulo then 16 else 18),
   item (.divide 6 6 7) (encodeR 0x01 7 6 4 6 0x33),
   item (.remainder 10 10 7) (encodeR 0x01 7 10 6 10 0x33),
   branchZeroItem 10 8,
   item (.exclusiveOr 29 10 7) (encodeR 0x00 7 10 4 29 0x33),
   item (.branch .greaterEqual 29 0 4) (encodeB 8 0 29 5 0x63),
   -- the signs differ
   if modulo then item (.add 10 10 7) (encodeR 0x00 7 10 0 10 0x33)
   else item (.addImmediate 6 6 (-1)) (encodeI (-1) 6 0 6 0x13)] ++
  -- the result is known
  (if modulo then [] else [moveItem 10 6]) ++
  [item (.jump 4) (encodeJ 8 0 0x6F),
   -- a division by zero
   moveItem 10 0]

/-- The bytes of floor arithmetic encode its instructions. -/
lemma encodes_floorItems (lhs rhs : Register) (modulo : Bool) :
    ∀ item ∈ floorItems lhs rhs modulo, riscv.Encodes item.1 item.2 := by
  cases modulo with
  | true =>
      simp only [floorItems, if_true, List.cons_append, List.nil_append, List.forall_mem_cons]
      exact ⟨encodes_moveItem _ _, encodes_moveItem _ _, encodes_moveItem _ _, encodes rfl,
        encodes rfl, encodes rfl, encodes rfl, encodes rfl, encodes rfl, encodes rfl, encodes rfl,
        encodes_moveItem _ _, List.forall_mem_nil _⟩
  | false =>
      simp only [floorItems, Bool.false_eq_true, if_false, List.cons_append, List.nil_append,
        List.forall_mem_cons]
      exact ⟨encodes_moveItem _ _, encodes_moveItem _ _, encodes_moveItem _ _, encodes rfl,
        encodes rfl, encodes rfl, encodes rfl, encodes rfl, encodes rfl, encodes rfl,
        encodes_moveItem _ _, encodes rfl, encodes_moveItem _ _, List.forall_mem_nil _⟩

/-- Floor arithmetic. -/
def floorBlock (target lhs rhs : Register) (modulo : Bool) : Block riscv where
  items := floorItems lhs rhs modulo ++ [moveItem target 10]
  encodes := List.forall_mem_append.mpr
    ⟨encodes_floorItems _ _ _, List.forall_mem_singleton.mpr (encodes_moveItem _ _)⟩

/-- The emitter with the move that follows it leaves the block behind. -/
lemma run_lowerFloor (target lhs rhs : Register) (modulo : Bool) (front : CodeBytes) :
    (lowerFloor modulo target lhs rhs).run front =
      (.ok (), front ++ (floorBlock target lhs rhs modulo).bytes) := by
  have hbytes : (floorBlock target lhs rhs modulo).bytes =
      (floorItems lhs rhs modulo).flatMap (·.2) ++ leBytes 4 (encodeI 0 10 0 target 0x13) :=
    List.flatMap_append.trans (congrArg _ (List.flatMap_singleton ..))
  have hfront : front = front ++ [] := (List.append_nil front).symm
  rw [lowerFloor, floorArithmetic, hbytes]
  conv_lhs => rw [hfront]
  cases modulo <;>
  · simp (disch := norm_num) only [floorCode, moveRegister, branchZero, branchNonnegative, emitI,
      emitR, bitwiseXor, add, StateT.run_bind, run_emitU32, run_branchOn, run_branch, pure_bind,
      run_size, patchAll, patchConditionalBranch, patchBranch, if_true, Bool.false_eq_true,
      Bool.true_eq_false, if_false, List.nil_append, List.length_append, length_leBytes,
      Nat.reduceAdd, run_patchDelta, StateT.run_pure]
    simp only [List.append_assoc, patchBytes_field, patchBytes_skip]
    rfl

/-- Where the result is known. -/
def resultIndex : Nat := 10

/-- Behind the instructions of a division. -/
def doneIndex (modulo : Bool) : Nat := if modulo then 12 else 13

/-- The length of floor arithmetic. -/
lemma length_floorBlock (target lhs rhs : Register) (modulo : Bool) :
    (floorBlock target lhs rhs modulo).items.length = doneIndex modulo + 1 := by
  cases modulo <;> rfl

section floor

variable {target lhs rhs : Register} {s₀ s : State} {modulo : Bool} {q r x y result : Word}
  (h : integerTarget.Undisturbed s₀ s) (htarget : target ≠ 0)

include h htarget

/-- The end of a division, with the result in the return register. -/
lemma completes_floor_done (hresult : s.read 10 = result) :
    (floorBlock target lhs rhs modulo).Completes (doneIndex modulo) s
      (integerTarget.Holds s₀ target result) := by
  have hend : (floorBlock target lhs rhs modulo).Completes (doneIndex modulo + 1)
      (s.set target (s.read 10 + (0 : BitVec 12).signExtend 64))
      (integerTarget.Holds s₀ target result) := by
    refine .done (length_floorBlock ..).symm ⟨?_, fun r hr hscratch => ?_, ?_⟩
    · refine (State.set_registers _ htarget ..).trans ((if_pos rfl).trans ?_)
      exact (read_move s 10).trans hresult
    · exact (State.set_registers _ htarget ..).trans ((if_neg hr).trans (h.others r hscratch))
    · exact (State.set_memory ..).trans h.memory
  cases modulo with
  | true => exact .next rfl rfl hend
  | false => exact .next rfl rfl hend

/-- A quotient is moved to the return register; a remainder is there. -/
lemma completes_floor_result (hresult : s.read (if modulo then 10 else 6) = result) :
    (floorBlock target lhs rhs modulo).Completes resultIndex s
      (integerTarget.Holds s₀ target result) := by
  have hlength := length_floorBlock target lhs rhs modulo
  have hdone : ∀ t, integerTarget.Undisturbed s₀ t → t.read 10 = result →
      (floorBlock target lhs rhs modulo).Completes (doneIndex modulo) t
        (integerTarget.Holds s₀ target result) := fun t ht hread =>
    completes_floor_done ht htarget hread
  cases modulo with
  | true => exact completes_jump rfl (hlength ▸ by decide) rfl (hdone s h hresult)
  | false =>
      have hmoved : (s.set 10 (s.read 6 + (0 : BitVec 12).signExtend 64)).read 10 = result := by
        rw [State.read_set _ (by decide) (by decide), if_pos rfl, read_move]
        exact hresult
      exact .next rfl rfl (completes_jump rfl (hlength ▸ by decide) rfl
        (hdone _ (undisturbed_set h (by decide) _) hmoved))

/-- The quotient or the remainder, once the signs are known to differ. -/
lemma completes_floor_adjust (hq : s.read 6 = q) (hr : s.read 10 = r) (hy : s.read 7 = y) :
    (floorBlock target lhs rhs modulo).Completes 9 s
      (integerTarget.Holds s₀ target (if modulo then r + y else q - 1)) := by
  cases modulo with
  | true =>
      refine .next rfl rfl (completes_floor_result (undisturbed_set h (by decide) _) htarget ?_)
      show (s.set 10 (s.read 10 + s.read 7)).read 10 = r + y
      rw [State.read_set _ (by decide) (by decide), if_pos rfl, hr, hy]
  | false =>
      refine .next rfl rfl (completes_floor_result (undisturbed_set h (by decide) _) htarget ?_)
      show (s.set 6 (s.read 6 + (-1 : BitVec 12).signExtend 64)).read 6 = q - 1
      rw [State.read_set _ (by decide) (by decide), if_pos rfl, hq]
      exact (BitVec.sub_eq_add_neg q 1).symm

/-- The signs of the remainder and of the divisor decide. -/
lemma completes_floor_signs (hq : s.read 6 = q) (hr : s.read 10 = r) (hy : s.read 7 = y) :
    (floorBlock target lhs rhs modulo).Completes 6 s
      (integerTarget.Holds s₀ target (adjustTruncated modulo q r y)) := by
  have hresult : s.read (if modulo then 10 else 6) = if modulo then r else q := by
    cases modulo <;> simp [hq, hr]
  have hinside : resultIndex ≤ (floorBlock target lhs rhs modulo).items.length := by
    rw [length_floorBlock]
    cases modulo <;> decide
  refine completes_branch (by rfl) hinside (by rfl) (fun hexact => ?_)
    fun hinexact => .next (by rfl) (by rfl) ?_
  · have hzero : r = 0 := hr.symm.trans (beq_iff_eq.mp hexact)
    rw [adjustTruncated, if_neg fun hsigns => hsigns.1 hzero]
    exact completes_floor_result h htarget hresult
  let s' := s.set 29 (s.read 10 ^^^ s.read 7)
  have hcompared : integerTarget.Undisturbed s₀ s' := undisturbed_set h (by decide) _
  have hread : ∀ p : Register, p ≠ 29 → p ≠ 0 → s'.read p = s.read p := fun p hp hzero =>
    (State.read_set _ (by decide) hzero _).trans (if_neg hp)
  have hsign : Condition.holds (s'.read 29) (s'.read 0) .greaterEqual = !(r ^^^ y).msb := by
    rw [State.read_set _ (by decide) (by decide), if_pos rfl, hr, hy]
    exact congrArg not BitVec.slt_zero_eq_msb
  have hne : r ≠ 0 := fun heq => beq_eq_false_iff_ne.mp hinexact (hr.trans heq)
  refine completes_branch (by rfl) hinside (by rfl) (fun hsame => ?_) fun hdiffer => ?_
  · have hmsb : ¬ (r ^^^ y).msb = true := by
      intro hmsb
      rw [hmsb] at hsign
      exact Bool.false_ne_true (hsign.symm.trans hsame)
    rw [adjustTruncated, if_neg fun hsigns => hmsb hsigns.2]
    refine completes_floor_result hcompared htarget (.trans (hread _ ?_ ?_) hresult)
    · cases modulo <;> decide
    · cases modulo <;> decide
  · have hmsb : (r ^^^ y).msb = true := by
      by_contra hmsb
      rw [Bool.eq_false_iff.mpr hmsb] at hsign
      exact Bool.false_ne_true (hdiffer.symm.trans hsign)
    rw [adjustTruncated, if_pos ⟨hne, hmsb⟩]
    exact completes_floor_adjust hcompared htarget ((hread 6 (by decide) (by decide)).trans hq)
      ((hread 10 (by decide) (by decide)).trans hr) ((hread 7 (by decide) (by decide)).trans hy)

/-- From the test of the divisor on. The machine does not trap on any quotient. -/
lemma completes_floor_divide (hx : s.read 6 = x) (hr : s.read 10 = x) (hy : s.read 7 = y) :
    (floorBlock target lhs rhs modulo).Completes 3 s
      (integerTarget.Holds s₀ target (floorWord modulo x y)) := by
  have hinside : (if modulo then 11 else 12) ≤ (floorBlock target lhs rhs modulo).items.length := by
    rw [length_floorBlock]
    cases modulo <;> decide
  refine completes_branch (by rfl) hinside (by cases modulo <;> rfl) (fun hzero => ?_)
    fun hnonzero => .next (by rfl) (by rfl) (.next (by rfl) (by rfl) ?_)
  · have hdivisor : y = 0 := hy.symm.trans (beq_iff_eq.mp hzero)
    have hend : ∀ b : Bool, (floorBlock target lhs rhs b).Completes (doneIndex b)
        (s.set 10 (s.read 0 + (0 : BitVec 12).signExtend 64)) (integerTarget.Holds s₀ target 0) := by
      intro b
      refine completes_floor_done (undisturbed_set h (by decide) _) htarget ?_
      rw [State.read_set _ (by decide) (by decide), if_pos rfl]
      exact read_move s 0
    rw [hdivisor, floorWord_zero]
    cases modulo with
    | true => exact .next rfl rfl (hend true)
    | false => exact .next rfl rfl (hend false)
  · have hdivisor : y ≠ 0 := fun heq => beq_eq_false_iff_ne.mp hnonzero (hy.trans heq)
    let s₁ := s.set 6 (x.sdiv y)
    have hquotient : s.set 6 (quotient (s.read 6) (s.read 7)) = s₁ := by
      rw [hx, hy, quotient, if_neg hdivisor]
    rw [hquotient]
    have hread : ∀ p : Register, p ≠ 6 → p ≠ 0 → s₁.read p = s.read p := fun p hp hzero =>
      (State.read_set _ (by decide) hzero _).trans (if_neg hp)
    let s₂ := s₁.set 10 (x.srem y)
    have hremainder : s₁.set 10 (remainder (s₁.read 10) (s₁.read 7)) = s₂ := by
      rw [hread 10 (by decide) (by decide), hread 7 (by decide) (by decide), hr, hy, remainder,
        if_neg hdivisor]
    rw [hremainder]
    have hdivided : integerTarget.Undisturbed s₀ s₂ :=
      undisturbed_set (undisturbed_set h (by decide) _) (by decide) _
    rw [floorWord_eq hdivisor]
    refine completes_floor_signs hdivided htarget ?_ ?_ ?_
    · rw [State.read_set _ (by decide) (by decide), if_neg (by decide),
        State.read_set _ (by decide) (by decide), if_pos rfl]
    · rw [State.read_set _ (by decide) (by decide), if_pos rfl]
    · rw [State.read_set _ (by decide) (by decide), if_neg (by decide),
        hread 7 (by decide) (by decide), hy]

end floor

/-- **Floor divisions are exact**, for all registers that an allocation leaves them with. -/
lemma floor_exact (modulo : Bool) {target lhs rhs : Register}
    (h : integerTarget.Assigns target lhs rhs) :
    integerTarget.LowersExactly (lowerFloor modulo target lhs rhs) target lhs rhs
      (floorWord modulo) := by
  have hne : ∀ r ∈ kScratch0 :: kAllocationRegisters, r ≠ 0 := by decide
  have hrhs : ∀ r ∈ kScratch1 :: kAllocationRegisters, r ≠ 6 ∧ r ≠ 0 := by decide
  -- the divisor is read after the dividend has been moved
  have hdivisor := hrhs rhs h.rhs
  refine IntegerTarget.lowersExactly_of_block (floorBlock target lhs rhs modulo)
    (run_lowerFloor target lhs rhs modulo) fun s => ?_
  let s₁ := s.set 6 (s.read lhs + (0 : BitVec 12).signExtend 64)
  let s₂ := s₁.set 7 (s₁.read rhs + (0 : BitVec 12).signExtend 64)
  let s₃ := s₂.set 10 (s₂.read 6 + (0 : BitVec 12).signExtend 64)
  have hmoved : integerTarget.Undisturbed s s₃ := by
    refine undisturbed_set (undisturbed_set (undisturbed_set (.refl _ s) ?_ _) ?_ _) ?_ _
    all_goals decide
  have hdividend : s₂.read 6 = s.registers lhs := by
    rw [State.read_set _ (by decide) (by decide), if_neg (by decide),
      State.read_set _ (by decide) (by decide), if_pos rfl, read_move]
    exact if_neg (hne lhs h.lhs)
  refine .next rfl rfl (.next rfl rfl (.next rfl rfl
    (completes_floor_divide hmoved (hne target h.target) ?_ ?_ ?_)))
  · rw [State.read_set _ (by decide) (by decide), if_neg (by decide)]
    exact hdividend
  · rw [State.read_set _ (by decide) (by decide), if_pos rfl]
    exact (read_move s₂ 6).trans hdividend
  · rw [State.read_set _ (by decide) (by decide), if_neg (by decide),
      State.read_set _ (by decide) (by decide), if_pos rfl]
    refine (read_move s₁ rhs).trans ?_
    rw [State.read_set _ (by decide) hdivisor.2, if_neg hdivisor.1]
    exact if_neg hdivisor.2

/-- **Integer lowering on RISC-V is exact.** -/
lemma lowerInteger_exact (o : IntegerOperation) {target lhs rhs : Register}
    (h : integerTarget.Assigns target lhs rhs) :
    integerTarget.LowersExactly (lowerInteger o target lhs rhs) target lhs rhs o.evaluate := by
  cases o with
  | floorDivide => exact floor_exact false h
  | floorModulo => exact floor_exact true h
  | shiftLeft => exact shiftLeft_exact h

end UniJit.Jit.RiscV
