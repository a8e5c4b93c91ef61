import UniJit.Jit.X86IntegerLowering
import UniJit.Jit.AArch64IntegerLowering
import UniJit.Jit.RiscVIntegerLowering

/-!
# The integer sequences of all back ends

One statement about the shifts and floor divisions of the three back ends: over any registers that
an allocation leaves an operation with, the code that is emitted computes what the interpreter
computes.
-/

namespace UniJit.Jit

/-- The back ends. -/
inductive NativeBackend
  | x86_64 | aarch64 | riscv64
  deriving DecidableEq, Repr

/-- A back end with its emitters. -/
structure IntegerBackend where
  Instruction : Type
  State : Type
  Register : Type
  target : IntegerTarget Instruction State Register
  lowerInteger : IntegerOperation → Register → Register → Register → Emit (Except Status Unit)

/-- The integer sequences of a back end. -/
def NativeBackend.integer : NativeBackend → IntegerBackend
  | .x86_64 => ⟨_, _, _, X86.integerTarget, X86.Assembler.lowerInteger⟩
  | .aarch64 => ⟨_, _, _, AArch64.integerTarget, AArch64.Assembler.lowerInteger⟩
  | .riscv64 => ⟨_, _, _, RiscV.integerTarget, RiscV.Assembler.lowerInteger⟩

/-- **Integer lowering is exact.** On every back end and for all registers that an allocation leaves
an operation with, the sequence runs to its end without a trap, the target holds the result of the
operation, and the other allocatable registers and the memory are as they were. -/
theorem integerLowering_exact (b : NativeBackend) (o : IntegerOperation)
    {target lhs rhs : b.integer.Register} (h : b.integer.target.Assigns target lhs rhs) :
    b.integer.target.LowersExactly (b.integer.lowerInteger o target lhs rhs) target lhs rhs
      o.evaluate := by
  cases b with
  | x86_64 => exact X86.lowerInteger_exact o h
  | aarch64 => exact AArch64.lowerInteger_exact o h
  | riscv64 => exact RiscV.lowerInteger_exact o h

/-- The divisor is in `rdx`, which the division itself needs, and the dividend and the quotient are
spilled. -/
theorem integerLowering_exact_rdx :
    X86.integerTarget.LowersExactly (X86.Assembler.lowerInteger .floorDivide 0 0 2) 0 0 2
      Ir.floorDivideWord := by
  have h : X86.integerTarget.Assigns 0 0 2 := ⟨by decide, by decide, by decide⟩
  exact integerLowering_exact .x86_64 .floorDivide h

end UniJit.Jit
