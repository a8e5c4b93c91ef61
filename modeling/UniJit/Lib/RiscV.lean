import UniJit.Lib.MachineCode

/-!
# A fragment of RISC-V

Word arithmetic, variable shifts, divisions and branches on 64-bit registers. Register 0 reads as
zero and drops what is written to it. A division never traps: a quotient by zero is all ones, a
remainder by zero is the dividend, and the quotient of the least word by `-1` is the least word
again.

Displacements are stored in halves.
-/

namespace UniJit.Lib.RiscV

open UniJit.Lib.MachineCode

/-- A register number; register 0 reads 0. -/
abbrev Register := Fin 32

/-- The conditions of branches. -/
inductive Condition
  | equal | notEqual | lessThan | greaterEqual
  deriving DecidableEq, Repr

/-- The instructions of this subset. -/
inductive Instruction
  | addImmediate (destination source : Register) (immediate : BitVec 12)
  | setLessThanUnsignedImmediate (destination source : Register) (immediate : BitVec 12)
  | add (destination lhs rhs : Register)
  | subtract (destination lhs rhs : Register)
  | exclusiveOr (destination lhs rhs : Register)
  | shiftLeft (destination value amount : Register)
  | shiftRight (destination value amount : Register)
  | divide (destination lhs rhs : Register)
  | remainder (destination lhs rhs : Register)
  | branch (condition : Condition) (lhs rhs : Register) (halves : BitVec 12)
  | jump (halves : BitVec 20)
  deriving DecidableEq, Repr

/-! ## Decoding -/

/-- The register in five bits of an instruction. -/
def field (word : BitVec 32) (low : Nat) : Register := Fin.ofNat 32 (word.toNat / 2 ^ low)

/-- The instructions with three registers. -/
def decodeRegisters (word : BitVec 32) : Option Instruction :=
  let destination := field word 7
  let lhs := field word 15
  let rhs := field word 20
  if word &&& 0xFE00707F = 0x00000033 then some (.add destination lhs rhs)
  else if word &&& 0xFE00707F = 0x40000033 then some (.subtract destination lhs rhs)
  else if word &&& 0xFE00707F = 0x00004033 then some (.exclusiveOr destination lhs rhs)
  else if word &&& 0xFE00707F = 0x00001033 then some (.shiftLeft destination lhs rhs)
  else if word &&& 0xFE00707F = 0x00005033 then some (.shiftRight destination lhs rhs)
  else if word &&& 0xFE00707F = 0x02004033 then some (.divide destination lhs rhs)
  else if word &&& 0xFE00707F = 0x02006033 then some (.remainder destination lhs rhs)
  else none

/-- The condition in a word's function field. -/
def conditionOf (word : BitVec 32) : Option Condition :=
  if word &&& 0x7000 = 0x0000 then some .equal
  else if word &&& 0x7000 = 0x1000 then some .notEqual
  else if word &&& 0x7000 = 0x4000 then some .lessThan
  else if word &&& 0x7000 = 0x5000 then some .greaterEqual
  else none

/-- The scattered displacement of a conditional branch. -/
def branchHalves (word : BitVec 32) : BitVec 12 :=
  word.extractLsb' 31 1 ++ word.extractLsb' 7 1 ++ word.extractLsb' 25 6 ++ word.extractLsb' 8 4

/-- The scattered displacement of a jump. -/
def jumpHalves (word : BitVec 32) : BitVec 20 :=
  word.extractLsb' 31 1 ++ word.extractLsb' 12 8 ++ word.extractLsb' 20 1 ++ word.extractLsb' 21 10

/-- Decodes one instruction word. -/
def decodeWord (word : BitVec 32) : Option Instruction :=
  if word &&& 0x707F = 0x0013 then
    some (.addImmediate (field word 7) (field word 15) (word.extractLsb' 20 12))
  else if word &&& 0x707F = 0x3013 then
    some (.setLessThanUnsignedImmediate (field word 7) (field word 15) (word.extractLsb' 20 12))
  else if word &&& 0x7F = 0x63 then
    (conditionOf word).map fun condition =>
      .branch condition (field word 15) (field word 20) (branchHalves word)
  -- a jump that keeps no return address
  else if word &&& 0xFFF = 0x06F then some (.jump (jumpHalves word))
  else decodeRegisters word

/-! ## Execution -/

/-- Registers and memory. -/
structure State where
  registers : Register → BitVec 64
  memory : BitVec 64 → BitVec 8

namespace State

/-- Reads a register; register 0 reads 0. -/
def read (s : State) (r : Register) : BitVec 64 := if r = 0 then 0 else s.registers r

/-- Writes a register; writes to register 0 are lost. -/
def set (s : State) (r : Register) (value : BitVec 64) : State :=
  if r = 0 then s else { s with registers := Function.update s.registers r value }

end State

/-- Whether a condition holds of two registers. -/
def Condition.holds (lhs rhs : BitVec 64) : Condition → Bool
  | .equal => lhs == rhs
  | .notEqual => lhs != rhs
  | .lessThan => lhs.slt rhs
  | .greaterEqual => !lhs.slt rhs

/-- Division as the set defines it, also by zero. -/
def quotient (lhs rhs : BitVec 64) : BitVec 64 :=
  if rhs = 0 then BitVec.allOnes 64 else lhs.sdiv rhs

/-- Remainder as the set defines it, also by zero. -/
def remainder (lhs rhs : BitVec 64) : BitVec 64 := if rhs = 0 then lhs else lhs.srem rhs

/-- A displacement in halves counts from the start of its instruction. -/
def jumpTo {n : Nat} (halves : BitVec n) (s : State) : Effect State := .jump (2 * halves.toInt) s

/-- What an instruction does. -/
def step (i : Instruction) (_length : Nat) (s : State) : Effect State :=
  match i with
  | .addImmediate destination source immediate =>
      .next (s.set destination (s.read source + immediate.signExtend 64))
  | .setLessThanUnsignedImmediate destination source immediate =>
      .next (s.set destination (if (s.read source).ult (immediate.signExtend 64) then 1 else 0))
  | .add destination lhs rhs => .next (s.set destination (s.read lhs + s.read rhs))
  | .subtract destination lhs rhs => .next (s.set destination (s.read lhs - s.read rhs))
  | .exclusiveOr destination lhs rhs => .next (s.set destination (s.read lhs ^^^ s.read rhs))
  | .shiftLeft destination value amount =>
      .next (s.set destination (s.read value <<< ((s.read amount).toNat % 64)))
  | .shiftRight destination value amount =>
      .next (s.set destination (s.read value >>> ((s.read amount).toNat % 64)))
  | .divide destination lhs rhs => .next (s.set destination (quotient (s.read lhs) (s.read rhs)))
  | .remainder destination lhs rhs =>
      .next (s.set destination (remainder (s.read lhs) (s.read rhs)))
  | .branch condition lhs rhs halves =>
      if condition.holds (s.read lhs) (s.read rhs) then jumpTo halves s else .next s
  | .jump halves => jumpTo halves s

/-- The fragment as an instruction set. -/
def riscv : Isa Instruction State := ⟨Isa.decodeWith decodeWord, step⟩

lemma encodes {i : Instruction} {word : BitVec 32} (h : decodeWord word = some i) :
    riscv.Encodes i (leBytes 4 word) := Isa.encodes_word h

/-! ## Reading states -/

section states

variable (s : State)

lemma State.set_registers {r : Register} (hr : r ≠ 0) (q : Register) (value : BitVec 64) :
    (s.set r value).registers q = if q = r then value else s.registers q := by
  simp [State.set, hr, Function.update_apply]

/-- What is read after a write. -/
lemma State.read_set {r q : Register} (hr : r ≠ 0) (hq : q ≠ 0) (value : BitVec 64) :
    (s.set r value).read q = if q = r then value else s.read q := by
  simp only [State.read, if_neg hq, State.set_registers s hr]

/-- A write to a register leaves the memory alone. -/
@[simp] lemma State.set_memory (r : Register) (value : BitVec 64) :
    (s.set r value).memory = s.memory := by
  unfold State.set
  split_ifs <;> rfl

end states

/-! ## Rules -/

section rules

variable {b : Block riscv} {k j : Nat} {bytes : List (BitVec 8)} {s : State} {Q : State → Prop}

/-- Where a displacement in halves leads. -/
lemma offset_add_halves {n : Nat} {halves : BitVec n} (hk : k ≤ b.items.length)
    (hj : j ≤ b.items.length) (htarget : 2 * (k : Int) + halves.toInt = 2 * j) :
    (b.offset k : Int) + 2 * halves.toInt = b.offset j := by
  have hstart : b.offset k = 4 * k := Block.offset_words b hk
  have hend : b.offset j = 4 * j := Block.offset_words b hj
  omega

/-- A jump completes where its target does. -/
lemma completes_jump {halves : BitVec 20} (h : b.items[k]? = some (.jump halves, bytes))
    (hj : j ≤ b.items.length) (htarget : 2 * (k : Int) + halves.toInt = 2 * j)
    (hrest : b.Completes j s Q) : b.Completes k s Q := by
  have hk := (List.getElem?_eq_some_iff.mp h).1
  exact .jump h rfl (offset_add_halves hk.le hj htarget) hrest

/-- A branch completes on both sides. -/
lemma completes_branch {condition : Condition} {lhs rhs : Register} {halves : BitVec 12}
    (h : b.items[k]? = some (.branch condition lhs rhs halves, bytes))
    (hj : j ≤ b.items.length) (htarget : 2 * (k : Int) + halves.toInt = 2 * j)
    (htaken : condition.holds (s.read lhs) (s.read rhs) = true → b.Completes j s Q)
    (hpassed : condition.holds (s.read lhs) (s.read rhs) = false → b.Completes (k + 1) s Q) :
    b.Completes k s Q := by
  have hk := (List.getElem?_eq_some_iff.mp h).1
  cases hcondition : condition.holds (s.read lhs) (s.read rhs) with
  | true =>
      exact .jump h (if_pos hcondition) (offset_add_halves hk.le hj htarget) (htaken hcondition)
  | false =>
      have hnot : ¬ condition.holds (s.read lhs) (s.read rhs) = true := by simp [hcondition]
      exact .next h (if_neg hnot) (hpassed hcondition)

end rules

end UniJit.Lib.RiscV
