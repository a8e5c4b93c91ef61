import UniJit.Jit.CodeBuffer
import UniJit.Jit.X86Assembler
import UniJit.Lib.X86Program

/-!
# The x86-64 assembler: programs

The emitters of the x86-64 back end for code with branches of its own: each appends to the code
buffer, and a branch returns the position of its displacement, which `patchBranch` fills in.

`encodes_*` says which instruction the bytes of an emitter are, and `run_*` what an emitter does to
a buffer.
-/

namespace UniJit.Jit.X86.Assembler

open UniJit.Ir UniJit.Lib UniJit.Lib.X86 UniJit.Lib.X86Program UniJit.Jit.CodeBuffer

/-! ## Emitters -/

/-- Emits a move. -/
def moveRegister (destination source : Register) : Emit Unit :=
  emit (X86.moveRegister destination source)

/-- Emits a move of an immediate. -/
def moveImmediate (destination : Register) (immediate : Word) : Emit Unit :=
  emit (rex 0 destination :: BitVec.ofNat 8 (0xB8 + (destination.val &&& 7)) ::
    leBytes 8 immediate)

/-- The opcode group of `negate` and `bitwise_not`. -/
def unaryWord (destination source : Register) (extension : Nat) : Emit Unit := do
  if destination ≠ source then moveRegister destination source
  emit [rex 0 destination, 0xF7, modrm 3 extension destination]

/-- Emits a negation. -/
def negate (destination source : Register) : Emit Unit := unaryWord destination source 3

/-- Emits a shift by the count register. -/
def shiftVariable (destination : Register) (right : Bool) : Emit Unit :=
  emit [rex 0 destination, 0xD3, modrm 3 (if right then 5 else 4) destination]

/-- Moves the left operand to the destination. -/
def prepareBinary (destination lhs : Register) : Emit Unit :=
  if destination ≠ lhs then moveRegister destination lhs else pure ()

/-- The bytes of a binary operation. -/
def binaryBytes (opcode : Byte) (destination rhs : Register) : CodeBytes :=
  [rex rhs destination, opcode, modrm 3 rhs destination]

/-- Emits an addition. -/
def add (destination lhs rhs : Register) : Emit Unit := do
  prepareBinary destination lhs
  emit (binaryBytes 0x01 destination rhs)

/-- Emits a bitwise operation. -/
def bitwiseBinary (destination lhs rhs : Register) (opcode : Byte) : Emit Unit := do
  prepareBinary destination lhs
  emit (binaryBytes opcode destination rhs)

/-- Emits a conjunction. -/
def bitwiseAnd (destination lhs rhs : Register) : Emit Unit :=
  bitwiseBinary destination lhs rhs 0x21

/-- Emits a disjunction. -/
def bitwiseOr (destination lhs rhs : Register) : Emit Unit :=
  bitwiseBinary destination lhs rhs 0x09

/-- Emits an exclusive disjunction. -/
def bitwiseXor (destination lhs rhs : Register) : Emit Unit :=
  bitwiseBinary destination lhs rhs 0x31

/-- The bytes of a test of a register. -/
def testRegister (source : Register) : CodeBytes :=
  [rex source source, 0x85, modrm 3 source source]

/-- The bytes of a comparison with an immediate. -/
def compareImmediate (source : Register) (immediate : Byte) : CodeBytes :=
  [rex 0 source, 0x83, modrm 3 7 source, immediate]

/-- A branch at the end of some bytes; its displacement is empty. -/
def branchAfter (bytes : CodeBytes) : Emit Nat := do
  emit bytes
  let displacement ← size
  emitU32 0
  pure displacement

/-- Emits a jump to be patched. -/
def branch : Emit Nat := branchAfter [0xE9]

/-- Emits a branch on zero to be patched. -/
def branchZero (source : Register) : Emit Nat :=
  branchAfter (testRegister source ++ [0x0F, 0x84])

/-- Emits a branch on a negative word to be patched. -/
def branchNegative (source : Register) : Emit Nat :=
  branchAfter (testRegister source ++ [0x0F, 0x88])

/-- Emits a branch on a nonnegative word to be patched. -/
def branchNonnegative (source : Register) : Emit Nat :=
  branchAfter (testRegister source ++ [0x0F, 0x89])

/-- Emits a branch on equality with an immediate to be patched. -/
def branchEqualImmediate (source : Register) (immediate : Byte) : Emit Nat :=
  branchAfter (compareImmediate source immediate ++ [0x0F, 0x84])

/-- Emits a branch on an unsigned comparison to be patched. -/
def branchUnsignedGreaterEqual (source : Register) (immediate : Byte) : Emit Nat :=
  branchAfter (compareImmediate source immediate ++ [0x0F, 0x83])

/-- Emits a branch on the flags to be patched. -/
def branchNotEqualFlags : Emit Nat := branchAfter [0x0F, 0x85]

/-- The distance from the end of a displacement to its target. -/
def branchDelta (displacement target : Nat) : Int := (target : Int) - ((displacement : Int) + 4)

/-- Sets the target of a branch. -/
def patchBranch (displacement target : Nat) : Emit (Except Status Unit) :=
  let delta := branchDelta displacement target
  if delta < -2 ^ 31 ∨ 2 ^ 31 - 1 < delta then
    pure (.error ⟨.resourceExhausted, "x86-64 CFG branch exceeds its encoding range", 0⟩)
  else do
    patchU32 displacement (BitVec.ofInt 32 delta)
    pure (.ok ())

/-! ## What the bytes are -/

/-- The bytes of a move encode it. -/
lemma encodes_moveRegister (destination source : Register) :
    x86.Encodes (.move destination source) (X86.moveRegister destination source) := by
  have hrex : ∀ reg rm : Register, rex reg rm ≠ 0xE9 ∧ rex reg rm ≠ 0x0F ∧ rex reg rm ≠ 0xF0 ∧
      rex reg rm ≠ 0x66 ∧ isRex (rex reg rm) = true ∧ rex reg rm &&& 0x08 ≠ 0 := by decide
  obtain ⟨hjump, hbranch, hlock, hsize, hisRex, hwide⟩ := hrex destination source
  obtain ⟨⟨hreg, hrm, hmode⟩, -⟩ := fields_rex destination source
  apply encodes_of_read
  intro rest
  rw [X86.moveRegister, List.cons_append, List.cons_append, List.cons_append, readInstruction,
    if_neg hjump, if_neg hbranch, if_neg hlock, if_neg hsize, readRex, if_pos hisRex,
    if_pos hwide]
  simp [readOpcode, readModrm, hreg, hrm, hmode]

/-- A displacement is read back. -/
lemma decode32_leBytes (displacement : BitVec 32) (rest : CodeBytes) :
    decode32 (leBytes 4 displacement ++ rest) = some (displacement, rest) := by
  have hbytes := ofLeBytes_leBytes (m := 32) (n := 4) rfl displacement
  exact congrArg (fun w => some (w, rest)) hbytes

/-- The bytes of a jump encode it. -/
lemma encodes_jump (displacement : BitVec 32) :
    x86.Encodes (.jump displacement) (0xE9 :: leBytes 4 displacement) := by
  apply encodes_of_read
  intro rest
  rw [List.cons_append, readInstruction, if_pos rfl, decode32_leBytes]
  rfl

/-- The bytes of a branch encode it. -/
lemma encodes_branch {opcode : Byte} {condition : X86Program.Condition}
    (h : X86Program.conditionOf opcode = some condition) (displacement : BitVec 32) :
    x86.Encodes (.branch condition displacement) (0x0F :: opcode :: leBytes 4 displacement) := by
  apply encodes_of_read
  intro rest
  rw [List.cons_append, List.cons_append, readInstruction, if_neg (by decide), if_pos rfl,
    readBranch, h, Option.bind_some, decode32_leBytes]
  rfl

/-! ## Running the emitters -/

section run

variable (front code : CodeBytes)

@[simp] lemma length_moveRegister (destination source : Register) :
    (X86.moveRegister destination source).length = 3 := rfl

/-- What emitting a branch leaves. -/
lemma run_branchAfter (bytes : CodeBytes) :
    (branchAfter bytes).run (front ++ code) =
      pure (front.length + (code.length + bytes.length),
        front ++ (code ++ bytes ++ leBytes 4 (0 : BitVec 32))) := by
  simp only [branchAfter, StateT.run_bind, run_emit, pure_bind, run_size, run_emitU32,
    StateT.run_pure, List.length_append]

/-- A patch that reaches its target exchanges the displacement. -/
lemma run_patchBranch {displacement target : Nat}
    (hlower : -2 ^ 31 ≤ branchDelta displacement target)
    (hupper : branchDelta displacement target ≤ 2 ^ 31 - 1) :
    (patchBranch (front.length + displacement) (front.length + target)).run (front ++ code) =
      pure (.ok (), front ++
        patchBytes (leBytes 4 (BitVec.ofInt 32 (branchDelta displacement target))) displacement
          code) := by
  have hdelta : branchDelta (front.length + displacement) (front.length + target) =
      branchDelta displacement target := by
    unfold branchDelta
    omega
  have hrange : ¬ (branchDelta displacement target < -2 ^ 31 ∨
      2 ^ 31 - 1 < branchDelta displacement target) := by omega
  simp only [patchBranch, hdelta, if_neg hrange, StateT.run_bind, run_patchU32, pure_bind,
    StateT.run_pure]

end run

end UniJit.Jit.X86.Assembler
