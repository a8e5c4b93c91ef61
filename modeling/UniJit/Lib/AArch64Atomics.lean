import UniJit.Lib.CallMachine
import UniJit.Lib.Sequences

/-!
# AArch64: exclusives, atomics and calls

A second fragment of AArch64, as instructions without their encodings: exclusive accesses, the
atomic instructions of the large system extensions, words of the frame, and calls. Register 31
reads as zero. Displacements count instructions. An access to shared memory must be aligned.
-/

namespace UniJit.Lib.AArch64Atomics

open UniJit.Lib.MachineCode (Effect)
open UniJit.Lib.SharedMemory UniJit.Lib.CallMachine UniJit.Lib.Sequences

/-- A machine with 128-bit float registers whose register 31 reads zero. -/
abbrev State := CallMachine.State 31 128

/-- What surrounds such a machine. -/
abbrev Environment := CallMachine.Environment 128

/-- What an atomic instruction does to a cell. -/
inductive UpdateKind
  | add | clear | exclusiveOr | set | swap
  deriving DecidableEq, Repr

/-- The word an atomic update stores. -/
def UpdateKind.apply {k : Nat} (kind : UpdateKind) (old operand : BitVec k) : BitVec k :=
  match kind with
  | .add => old + operand
  | .clear => old &&& ~~~operand
  | .exclusiveOr => old ^^^ operand
  | .set => old ||| operand
  | .swap => operand

/-- The instructions of this subset. -/
inductive Instruction
  | move (destination source : Register)
  | moveZero (destination : Register) (half : Nat) (immediate : BitVec 16)
  | moveKeep (destination : Register) (half : Nat) (immediate : BitVec 16)
  | not (destination source : Register)
  | and (destination lhs rhs : Register)
  | or (destination lhs rhs : Register)
  | exclusiveOr (destination lhs rhs : Register)
  | add (destination lhs rhs : Register)
  | decrement (register : Register)
  | zeroExtend (bytes : Nat) (destination source : Register)
  | compare (lhs rhs : Register)
  | load (home : Home)
  | store (home : Home)
  | frameAddress (destination : Register) (byteOffset : Nat)
  | loadAtomic (bytes : Nat) (acquire : Bool) (destination address : Register)
  | storeAtomic (bytes : Nat) (release : Bool) (source address : Register)
  | loadExclusive (bytes : Nat) (acquire : Bool) (destination address : Register)
  | storeExclusive (bytes : Nat) (release : Bool) (status source address : Register)
  | clearExclusive
  | compareAndSwap (bytes : Nat) (acquire release : Bool) (expected desired address : Register)
  | update (kind : UpdateKind) (bytes : Nat) (acquire release : Bool)
      (destination operand address : Register)
  | callRegister (target : Register)
  | branch (displacement : Int)
  | branchZero (source : Register) (displacement : Int)
  | branchNonzero (source : Register) (displacement : Int)
  | branchNotEqual (displacement : Int)
  deriving DecidableEq, Repr

/-- The register that holds the result and the first argument of a call. -/
def resultRegister : Register := 0

/-- The register that holds the second argument of a call. -/
def countRegister : Register := 1

section step

variable (e : Environment)

/-- An access to the cell at an aligned address. -/
def access (n : Nat) (address : BitVec 64) (s : State) : Effect State :=
  if address.toNat % n = 0 then .next s else .trap

/-- What an instruction does. -/
def step (i : Instruction) (s : State) : Effect State :=
  match i with
  | .move destination source => .next (s.set destination (s.read source))
  | .moveZero destination half immediate =>
      .next (s.set destination (immediate.setWidth 64 <<< (16 * half)))
  | .moveKeep destination half immediate =>
      .next (s.set destination
        ((s.read destination &&& ~~~((0xFFFF : BitVec 64) <<< (16 * half))) |||
          immediate.setWidth 64 <<< (16 * half)))
  | .not destination source => .next (s.set destination (~~~s.read source))
  | .and destination lhs rhs => .next (s.set destination (s.read lhs &&& s.read rhs))
  | .or destination lhs rhs => .next (s.set destination (s.read lhs ||| s.read rhs))
  | .exclusiveOr destination lhs rhs => .next (s.set destination (s.read lhs ^^^ s.read rhs))
  | .add destination lhs rhs => .next (s.set destination (s.read lhs + s.read rhs))
  | .decrement r => .next (s.set r (s.read r - 1))
  | .zeroExtend n destination source =>
      .next (s.set destination (((s.read source).setWidth (8 * n)).setWidth 64))
  | .compare lhs rhs => .next { s with zero := s.read lhs == s.read rhs }
  | .load home => .next (s.restore home)
  | .store home => .next (s.save home)
  | .frameAddress destination byteOffset =>
      .next (s.set destination (s.stackPointer + BitVec.ofNat 64 byteOffset))
  | .loadAtomic n _ destination address =>
      let (value, thread) := e.load s.thread n (s.read address).toNat
      access n (s.read address) ({ s with thread := thread }.set destination (value.setWidth 64))
  | .storeAtomic n _ source address =>
      access n (s.read address)
        { s with
          thread := e.store s.thread n (s.read address).toNat ((s.read source).setWidth (8 * n)) }
  | .loadExclusive n _ destination address =>
      let (value, thread) := e.loadExclusive s.thread n (s.read address).toNat
      access n (s.read address) ({ s with thread := thread }.set destination (value.setWidth 64))
  | .storeExclusive n _ status source address =>
      let (succeeded, thread) := e.storeConditional s.thread n (s.read address).toNat
        ((s.read source).setWidth (8 * n))
      access n (s.read address)
        ({ s with thread := thread }.set status (if succeeded then 0 else 1))
  | .clearExclusive => .next { s with thread := { s.thread with reservation := none } }
  | .compareAndSwap n _ _ expected desired address =>
      let (old, thread) := e.update s.thread n (s.read address).toNat fun old =>
        if old = (s.read expected).setWidth (8 * n) then some ((s.read desired).setWidth (8 * n))
        else none
      access n (s.read address) ({ s with thread := thread }.set expected (old.setWidth 64))
  | .update kind n _ _ destination operand address =>
      let (old, thread) := e.update s.thread n (s.read address).toNat fun old =>
        some (kind.apply old ((s.read operand).setWidth (8 * n)))
      access n (s.read address) ({ s with thread := thread }.set destination (old.setWidth 64))
  | .callRegister target =>
      .next (s.call e (s.read target) (s.read resultRegister) (s.read countRegister) resultRegister)
  | .branch displacement => .jump displacement s
  | .branchZero source displacement =>
      if s.read source = 0 then .jump displacement s else .next s
  | .branchNonzero source displacement =>
      if s.read source ≠ 0 then .jump displacement s else .next s
  | .branchNotEqual displacement => if s.zero then .next s else .jump displacement s

end step

section step

variable {e : Environment} {s : State} {n : Nat} {address r : Register} {displacement : Int}

/-! ## Branches -/

lemma step_branchZero (h : s.read r = 0) :
    step e (.branchZero r displacement) s = .jump displacement s :=
  if_pos h

lemma step_branchZero_of_ne (h : s.read r ≠ 0) :
    step e (.branchZero r displacement) s = .next s :=
  if_neg h

lemma step_branchNonzero (h : s.read r ≠ 0) :
    step e (.branchNonzero r displacement) s = .jump displacement s :=
  if_pos h

lemma step_branchNonzero_of_eq (h : s.read r = 0) :
    step e (.branchNonzero r displacement) s = .next s :=
  if_neg (not_not_intro h)

lemma step_branchNotEqual (h : s.zero = false) :
    step e (.branchNotEqual displacement) s = .jump displacement s :=
  if_neg (by rw [h]; exact Bool.false_ne_true)

lemma step_branchNotEqual_of_zero (h : s.zero = true) :
    step e (.branchNotEqual displacement) s = .next s :=
  if_pos h

/-! ## Accesses -/

variable (haligned : (s.read address).toNat % n = 0)

include haligned

/-- An exclusive load reads and reserves the cell. -/
lemma step_loadExclusive (acquire : Bool) (destination : Register) :
    step e (.loadExclusive n acquire destination address) s =
      .next ({ s with thread := (e.loadExclusive s.thread n (s.read address).toNat).2 }.set
        destination ((e.loadExclusive s.thread n (s.read address).toNat).1.setWidth 64)) := by
  simp only [step, access, if_pos haligned]

/-- An exclusive store tries to store and reports whether it failed. -/
lemma step_storeExclusive (release : Bool) (status source : Register) :
    step e (.storeExclusive n release status source address) s =
      .next ({ s with
        thread := (e.storeConditional s.thread n (s.read address).toNat
          ((s.read source).setWidth (8 * n))).2 }.set status
        (if (e.storeConditional s.thread n (s.read address).toNat
          ((s.read source).setWidth (8 * n))).1 then 0 else 1)) := by
  simp only [step, access, if_pos haligned]

end step

/-! ## Loading words -/

/-- The low halves of a word. -/
def lowHalves (k : Nat) (v : BitVec 64) : BitVec 64 := (v.setWidth (16 * k)).setWidth 64

/-- The bits of the low halfwords. -/
lemma getLsbD_lowHalves (k : Nat) (v : BitVec 64) (i : Nat) :
    (lowHalves k v).getLsbD i = (decide (i < 16 * k) && v.getLsbD i) := by
  rw [lowHalves, BitVec.getLsbD_setWidth, BitVec.getLsbD_setWidth]
  by_cases hi : i < 64
  · simp [hi]
  · simp [hi, BitVec.getLsbD_of_ge v i (not_lt.mp hi)]

/-- Inserting a half on top of the lower ones. -/
lemma insert_half (k : Nat) (v : BitVec 64) :
    (lowHalves k v &&& ~~~((0xFFFF : BitVec 64) <<< (16 * k))) |||
        ((v >>> (k * 16)).setWidth 16).setWidth 64 <<< (16 * k) = lowHalves (k + 1) v := by
  have hones : (0xFFFF : BitVec 64) = (BitVec.allOnes 16).setWidth 64 := rfl
  apply BitVec.eq_of_getLsbD_eq
  intro i hi
  rw [BitVec.getLsbD_or, BitVec.getLsbD_and, getLsbD_lowHalves, getLsbD_lowHalves,
    BitVec.getLsbD_not, hones, BitVec.getLsbD_shiftLeft, BitVec.getLsbD_setWidth,
    BitVec.getLsbD_allOnes, BitVec.getLsbD_shiftLeft, BitVec.getLsbD_setWidth,
    BitVec.getLsbD_setWidth, BitVec.getLsbD_ushiftRight]
  by_cases hlow : i < 16 * k
  · have hnext : i < 16 * (k + 1) := by omega
    simp [hi, hlow, hnext]
  · have hsum : k * 16 + (i - 16 * k) = i := by omega
    have hin : i - 16 * k < 16 ↔ i < 16 * (k + 1) := by omega
    have h64 : i - 16 * k < 64 := by omega
    simp [hi, hlow, hsum, hin, h64]

/-- A half that is zero is there already. -/
lemma lowHalves_succ_of_zero {k : Nat} {v : BitVec 64} (h : (v >>> (k * 16)).setWidth 16 = 0#16) :
    lowHalves (k + 1) v = lowHalves k v := by
  apply BitVec.eq_of_getLsbD_eq
  intro i hi
  rw [getLsbD_lowHalves, getLsbD_lowHalves]
  by_cases hlow : i < 16 * k
  · have hnext : i < 16 * (k + 1) := by omega
    simp [hlow, hnext]
  · by_cases hnext : i < 16 * (k + 1)
    · have hbit := congrArg (fun b => b.getLsbD (i - 16 * k)) h
      have hin : i - 16 * k < 16 := by omega
      have hsum : k * 16 + (i - 16 * k) = i := by omega
      simp [hin, hsum] at hbit
      simp [hlow, hnext, hbit]
    · simp [hlow, hnext]

end UniJit.Lib.AArch64Atomics
