import UniJit.Lib.CallMachine
import UniJit.Lib.Sequences

/-!
# RISC-V: reservations, atomics and calls

A second fragment of 64-bit RISC-V, as instructions without their encodings: the atomic extension,
words of the frame, literals and calls. Register 0 reads as zero. Displacements count instructions.
An access to shared memory must be aligned, and atomic accesses have four or eight bytes, of which
four are sign-extended.
-/

namespace UniJit.Lib.RiscVAtomics

open UniJit.Lib.MachineCode (Effect)
open UniJit.Lib.SharedMemory UniJit.Lib.CallMachine UniJit.Lib.Sequences

/-- A machine with 64-bit float registers whose register 0 reads zero. -/
abbrev State := CallMachine.State 0 64

/-- What surrounds such a machine. -/
abbrev Environment := CallMachine.Environment 64

/-- What an atomic memory operation does to a cell. -/
inductive UpdateKind
  | add | swap | exclusiveOr | or | and
  deriving DecidableEq, Repr

/-- The word an atomic update stores. -/
def UpdateKind.apply {k : Nat} (kind : UpdateKind) (old operand : BitVec k) : BitVec k :=
  match kind with
  | .add => old + operand
  | .swap => operand
  | .exclusiveOr => old ^^^ operand
  | .or => old ||| operand
  | .and => old &&& operand

/-- The instructions of this subset. -/
inductive Instruction
  | move (destination source : Register)
  | shiftLeft (destination source : Register) (amount : Nat)
  | shiftRight (destination source : Register) (amount : Nat)
  | decrement (register : Register)
  | load (home : Home)
  | store (home : Home)
  | frameAddress (destination : Register) (byteOffset : Nat)
  | upperAddress (destination : Register)
  | loadLiteral (destination : Register) (value : BitVec 64)
  | loadUnsigned (bytes : Nat) (destination address : Register)
  | storeWidth (bytes : Nat) (source address : Register)
  | fence
  | loadReserved (bytes : Nat) (acquire : Bool) (destination address : Register)
  | storeConditional (bytes : Nat) (release : Bool) (status source address : Register)
  | update (kind : UpdateKind) (bytes : Nat) (acquire release : Bool)
      (destination operand address : Register)
  | callRegister (target : Register)
  | branch (displacement : Int)
  | branchZero (source : Register) (displacement : Int)
  | branchNonzero (source : Register) (displacement : Int)
  | branchNotEqual (lhs rhs : Register) (displacement : Int)
  deriving DecidableEq, Repr

/-- The register that holds the result and the first argument of a call. -/
def resultRegister : Register := 10

/-- The register that holds the second argument of a call. -/
def countRegister : Register := 11

section step

variable (e : Environment)

/-- An access to the cell at an aligned address. -/
def access (n : Nat) (address : BitVec 64) (s : State) : Effect State :=
  if address.toNat % n = 0 then .next s else .trap

/-- An access that the atomic extension has. -/
def atomicAccess (n : Nat) (address : BitVec 64) (s : State) : Effect State :=
  if n = 4 ∨ n = 8 then access n address s else .trap

/-- What an instruction does. -/
def step (i : Instruction) (s : State) : Effect State :=
  match i with
  | .move destination source => .next (s.set destination (s.read source))
  | .shiftLeft destination source amount => .next (s.set destination (s.read source <<< amount))
  | .shiftRight destination source amount => .next (s.set destination (s.read source >>> amount))
  | .decrement r => .next (s.set r (s.read r - 1))
  | .load home => .next (s.restore home)
  | .store home => .next (s.save home)
  | .frameAddress destination byteOffset =>
      .next (s.set destination (s.stackPointer + BitVec.ofNat 64 byteOffset))
  | .upperAddress destination => .next (s.set destination e.programRelative)
  | .loadLiteral destination value => .next (s.set destination value)
  | .loadUnsigned n destination address =>
      let (value, thread) := e.load s.thread n (s.read address).toNat
      access n (s.read address) ({ s with thread := thread }.set destination (value.setWidth 64))
  | .storeWidth n source address =>
      access n (s.read address)
        { s with
          thread := e.store s.thread n (s.read address).toNat ((s.read source).setWidth (8 * n)) }
  | .fence => .next s
  | .loadReserved n _ destination address =>
      let (value, thread) := e.loadExclusive s.thread n (s.read address).toNat
      atomicAccess n (s.read address)
        ({ s with thread := thread }.set destination (value.signExtend 64))
  | .storeConditional n _ status source address =>
      let (succeeded, thread) := e.storeConditional s.thread n (s.read address).toNat
        ((s.read source).setWidth (8 * n))
      atomicAccess n (s.read address)
        ({ s with thread := thread }.set status (if succeeded then 0 else 1))
  | .update kind n _ _ destination operand address =>
      let (old, thread) := e.update s.thread n (s.read address).toNat fun old =>
        some (kind.apply old ((s.read operand).setWidth (8 * n)))
      atomicAccess n (s.read address)
        ({ s with thread := thread }.set destination (old.signExtend 64))
  | .callRegister target =>
      .next (s.call e (s.read target) (s.read resultRegister) (s.read countRegister) resultRegister)
  | .branch displacement => .jump displacement s
  | .branchZero source displacement =>
      if s.read source = 0 then .jump displacement s else .next s
  | .branchNonzero source displacement =>
      if s.read source ≠ 0 then .jump displacement s else .next s
  | .branchNotEqual lhs rhs displacement =>
      if s.read lhs ≠ s.read rhs then .jump displacement s else .next s

end step

section step

variable {e : Environment} {s : State} {n : Nat} {address r q : Register} {displacement : Int}

/-! ## Branches -/

lemma step_branchZero (h : s.read r = 0) :
    step e (.branchZero r displacement) s = .jump displacement s :=
  if_pos h

lemma step_branchZero_of_ne (h : s.read r ≠ 0) :
    step e (.branchZero r displacement) s = .next s :=
  if_neg h

lemma step_branchNonzero (h : s.read r ≠ 0) :
    step e (.branchNonzero r displacement) s = .jump displacement s :=
  if_pos h

lemma step_branchNonzero_of_eq (h : s.read r = 0) :
    step e (.branchNonzero r displacement) s = .next s :=
  if_neg (not_not_intro h)

lemma step_branchNotEqual (h : s.read r ≠ s.read q) :
    step e (.branchNotEqual r q displacement) s = .jump displacement s :=
  if_pos h

lemma step_branchNotEqual_of_eq (h : s.read r = s.read q) :
    step e (.branchNotEqual r q displacement) s = .next s :=
  if_neg (not_not_intro h)

/-! ## Accesses -/

variable (hatomic : n = 4 ∨ n = 8) (haligned : (s.read address).toNat % n = 0)

include hatomic haligned

/-- A reserving load reads and reserves the cell. -/
lemma step_loadReserved (acquire : Bool) (destination : Register) :
    step e (.loadReserved n acquire destination address) s =
      .next ({ s with thread := (e.loadExclusive s.thread n (s.read address).toNat).2 }.set
        destination ((e.loadExclusive s.thread n (s.read address).toNat).1.signExtend 64)) := by
  simp only [step, atomicAccess, access, if_pos hatomic, if_pos haligned]

/-- A conditional store tries to store and reports whether it failed. -/
lemma step_storeConditional (release : Bool) (status source : Register) :
    step e (.storeConditional n release status source address) s =
      .next ({ s with
        thread := (e.storeConditional s.thread n (s.read address).toNat
          ((s.read source).setWidth (8 * n))).2 }.set status
        (if (e.storeConditional s.thread n (s.read address).toNat
          ((s.read source).setWidth (8 * n))).1 then 0 else 1)) := by
  simp only [step, atomicAccess, access, if_pos hatomic, if_pos haligned]

/-- An atomic update reads and writes the cell at once. -/
lemma step_update (kind : UpdateKind) (acquire release : Bool) (destination operand : Register) :
    step e (.update kind n acquire release destination operand address) s =
      .next ({ s with
        thread := (e.update s.thread n (s.read address).toNat fun old =>
          some (kind.apply old ((s.read operand).setWidth (8 * n)))).2 }.set destination
        ((e.update s.thread n (s.read address).toNat fun old =>
          some (kind.apply old ((s.read operand).setWidth (8 * n)))).1.signExtend 64)) := by
  simp only [step, atomicAccess, access, if_pos hatomic, if_pos haligned]

end step

/-- Shifting a word up and down again keeps its lower half. -/
lemma shifts_word (v : BitVec 64) : v <<< 32 >>> 32 = (v.setWidth (8 * 4)).setWidth 64 := by
  apply BitVec.eq_of_getLsbD_eq
  intro i hi
  rw [BitVec.getLsbD_ushiftRight, BitVec.getLsbD_shiftLeft, BitVec.getLsbD_setWidth,
    BitVec.getLsbD_setWidth]
  by_cases hlow : i < 8 * 4
  · have hsum : 32 + i < 64 := by omega
    simp [hi, hlow, hsum]
  · have hsum : ¬ 32 + i < 64 := by omega
    simp [hlow, hsum]

/-- Cutting an extension down again. -/
lemma setWidth_signExtend {k : Nat} (hk : k ≤ 64) (v : BitVec k) :
    (v.signExtend 64).setWidth k = v := by
  apply BitVec.eq_of_getLsbD_eq
  intro i hi
  have hword : i < 64 := hi.trans_le hk
  rw [BitVec.getLsbD_setWidth, BitVec.getLsbD_signExtend]
  simp [hi, hword]

end UniJit.Lib.RiscVAtomics
