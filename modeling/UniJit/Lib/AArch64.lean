import UniJit.Lib.MachineCode

/-!
# A fragment of AArch64

Moves, word arithmetic, variable shifts, divisions and branches on 64-bit registers. Register 31
reads as zero and drops what is written to it. A division never traps: a quotient by zero is zero,
and the quotient of the least word by `-1` is the least word again.
-/

namespace UniJit.Lib.AArch64

open UniJit.Lib.MachineCode

/-- A register number; 31 names the zero register. -/
abbrev Register := Fin 32

/-- The conditions of branches. -/
inductive Condition
  | equal | notEqual | carrySet | carryClear | greaterEqual | lessThan
  deriving DecidableEq, Repr

/-- The instructions of this subset. -/
inductive Instruction
  | or (destination lhs rhs : Register)
  | exclusiveOr (destination lhs rhs : Register)
  | add (destination lhs rhs : Register)
  | subtract (destination lhs rhs : Register)
  | shiftLeft (destination value amount : Register)
  | shiftRight (destination value amount : Register)
  | divide (destination lhs rhs : Register)
  /-- The product of two registers, subtracted from a third. -/
  | multiplySubtract (destination lhs rhs minuend : Register)
  | moveWide (destination : Register) (half : Nat) (immediate : BitVec 16)
  | compareImmediate (lhs : Register) (immediate : BitVec 12)
  | branchCondition (condition : Condition) (words : BitVec 19)
  | branchZero (source : Register) (words : BitVec 19)
  | branch (words : BitVec 26)
  deriving DecidableEq, Repr

/-! ## Decoding -/

/-- The register in five bits of an instruction. -/
def field (word : BitVec 32) (low : Nat) : Register := Fin.ofNat 32 (word.toNat / 2 ^ low)

/-- The condition in the low bits of a word. -/
def conditionOf (word : BitVec 32) : Option Condition :=
  if word &&& 0xF = 0x0 then some .equal
  else if word &&& 0xF = 0x1 then some .notEqual
  else if word &&& 0xF = 0x2 then some .carrySet
  else if word &&& 0xF = 0x3 then some .carryClear
  else if word &&& 0xF = 0xA then some .greaterEqual
  else if word &&& 0xF = 0xB then some .lessThan
  else none

/-- The instructions with three registers. -/
def decodeRegisters (word : BitVec 32) : Option Instruction :=
  let destination := field word 0
  let lhs := field word 5
  let rhs := field word 16
  if word &&& 0xFFE0FC00 = 0xAA000000 then some (.or destination lhs rhs)
  else if word &&& 0xFFE0FC00 = 0xCA000000 then some (.exclusiveOr destination lhs rhs)
  else if word &&& 0xFFE0FC00 = 0x8B000000 then some (.add destination lhs rhs)
  else if word &&& 0xFFE0FC00 = 0xCB000000 then some (.subtract destination lhs rhs)
  else if word &&& 0xFFE0FC00 = 0x9AC02000 then some (.shiftLeft destination lhs rhs)
  else if word &&& 0xFFE0FC00 = 0x9AC02400 then some (.shiftRight destination lhs rhs)
  else if word &&& 0xFFE0FC00 = 0x9AC00C00 then some (.divide destination lhs rhs)
  else if word &&& 0xFFE08000 = 0x9B008000 then
    some (.multiplySubtract destination lhs rhs (field word 10))
  else none

/-- Decodes one instruction word. -/
def decodeWord (word : BitVec 32) : Option Instruction :=
  if word &&& 0xFC000000 = 0x14000000 then some (.branch (word.setWidth 26))
  else if word &&& 0xFF000000 = 0xB4000000 then
    some (.branchZero (field word 0) ((word >>> 5).setWidth 19))
  else if word &&& 0xFF000010 = 0x54000000 then
    (conditionOf word).map fun condition => .branchCondition condition ((word >>> 5).setWidth 19)
  else if word &&& 0xFF800000 = 0xD2800000 then
    some (.moveWide (field word 0) (word.toNat / 2 ^ 21 % 4) ((word >>> 5).setWidth 16))
  else if word &&& 0xFFC0001F = 0xF100001F then
    -- register 31 is the stack pointer here
    if field word 5 = 31 then none
    else some (.compareImmediate (field word 5) ((word >>> 10).setWidth 12))
  else decodeRegisters word

/-! ## Execution -/

/-- Registers, memory and flags. -/
structure State where
  registers : Register → BitVec 64
  memory : BitVec 64 → BitVec 8
  negative : Bool := false
  zero : Bool := false
  carry : Bool := false
  overflow : Bool := false

namespace State

/-- Reads a register; the zero register reads 0. -/
def read (s : State) (r : Register) : BitVec 64 := if r = 31 then 0 else s.registers r

/-- Writes a register; writes to the zero register are lost. -/
def set (s : State) (r : Register) (value : BitVec 64) : State :=
  if r = 31 then s else { s with registers := Function.update s.registers r value }

/-- The flags of a difference. -/
def compare (s : State) (lhs rhs : BitVec 64) : State :=
  { s with
    negative := (lhs - rhs).msb
    zero := lhs == rhs
    carry := decide (rhs.toNat ≤ lhs.toNat)
    overflow := BitVec.ssubOverflow lhs rhs }

end State

/-- Whether a condition holds of the flags. -/
def Condition.holds (s : State) : Condition → Bool
  | .equal => s.zero
  | .notEqual => !s.zero
  | .carrySet => s.carry
  | .carryClear => !s.carry
  | .greaterEqual => s.negative == s.overflow
  | .lessThan => s.negative != s.overflow

/-- A displacement in words counts from the start of its instruction. -/
def jumpWords {n : Nat} (words : BitVec n) (s : State) : Effect State := .jump (4 * words.toInt) s

/-- What an instruction does. -/
def step (i : Instruction) (_length : Nat) (s : State) : Effect State :=
  match i with
  | .or destination lhs rhs => .next (s.set destination (s.read lhs ||| s.read rhs))
  | .exclusiveOr destination lhs rhs => .next (s.set destination (s.read lhs ^^^ s.read rhs))
  | .add destination lhs rhs => .next (s.set destination (s.read lhs + s.read rhs))
  | .subtract destination lhs rhs => .next (s.set destination (s.read lhs - s.read rhs))
  | .shiftLeft destination value amount =>
      .next (s.set destination (s.read value <<< ((s.read amount).toNat % 64)))
  | .shiftRight destination value amount =>
      .next (s.set destination (s.read value >>> ((s.read amount).toNat % 64)))
  | .divide destination lhs rhs => .next (s.set destination ((s.read lhs).sdiv (s.read rhs)))
  | .multiplySubtract destination lhs rhs minuend =>
      .next (s.set destination (s.read minuend - s.read lhs * s.read rhs))
  | .moveWide destination half immediate =>
      .next (s.set destination (immediate.setWidth 64 <<< (16 * half)))
  | .compareImmediate lhs immediate => .next (s.compare (s.read lhs) (immediate.setWidth 64))
  | .branchCondition condition words =>
      if condition.holds s then jumpWords words s else .next s
  | .branchZero source words => if s.read source = 0 then jumpWords words s else .next s
  | .branch words => jumpWords words s

/-- The fragment as an instruction set. -/
def aarch64 : Isa Instruction State := ⟨Isa.decodeWith decodeWord, step⟩

lemma encodes {i : Instruction} {word : BitVec 32} (h : decodeWord word = some i) :
    aarch64.Encodes i (leBytes 4 word) := Isa.encodes_word h

/-! ## Reading states -/

section states

variable (s : State)

lemma State.set_registers {r : Register} (hr : r ≠ 31) (q : Register) (value : BitVec 64) :
    (s.set r value).registers q = if q = r then value else s.registers q := by
  simp [State.set, hr, Function.update_apply]

/-- What is read after a write. -/
lemma State.read_set {r q : Register} (hr : r ≠ 31) (hq : q ≠ 31) (value : BitVec 64) :
    (s.set r value).read q = if q = r then value else s.read q := by
  simp only [State.read, if_neg hq, State.set_registers s hr]

/-- A write to a register leaves the memory alone. -/
@[simp] lemma State.set_memory (r : Register) (value : BitVec 64) :
    (s.set r value).memory = s.memory := by
  unfold State.set
  split_ifs <;> rfl

variable (lhs rhs : BitVec 64)

/-- Below zero is the sign bit. -/
lemma holds_lessThan_compare_zero :
    Condition.holds (s.compare lhs 0) .lessThan = lhs.msb := by
  have hoverflow : BitVec.ssubOverflow lhs 0 = false := by
    have hlower := BitVec.le_toInt lhs
    have hupper := BitVec.toInt_lt (x := lhs)
    simp [BitVec.ssubOverflow]
    omega
  show ((lhs - 0).msb != BitVec.ssubOverflow lhs 0) = lhs.msb
  rw [hoverflow]
  simp

/-- Not below zero is a clear sign bit. -/
lemma holds_greaterEqual_compare_zero :
    Condition.holds (s.compare lhs 0) .greaterEqual = !lhs.msb := by
  have hless := holds_lessThan_compare_zero s lhs
  have hnot : Condition.holds (s.compare lhs 0) .greaterEqual =
      !Condition.holds (s.compare lhs 0) .lessThan :=
    (Bool.not_not _).symm
  rw [hnot, hless]

end states

/-! ## Rules -/

section rules

variable {b : Block aarch64} {k j : Nat} {bytes : List (BitVec 8)} {s : State} {Q : State → Prop}

/-- Where a displacement in words leads. -/
lemma offset_add_words {n : Nat} {words : BitVec n} (hk : k ≤ b.items.length)
    (hj : j ≤ b.items.length) (htarget : (k : Int) + words.toInt = j) :
    (b.offset k : Int) + 4 * words.toInt = b.offset j := by
  have hstart : b.offset k = 4 * k := Block.offset_words b hk
  have hend : b.offset j = 4 * j := Block.offset_words b hj
  omega

/-- A branch completes where its target does. -/
lemma completes_branch {words : BitVec 26} (h : b.items[k]? = some (.branch words, bytes))
    (hj : j ≤ b.items.length) (htarget : (k : Int) + words.toInt = j)
    (hrest : b.Completes j s Q) : b.Completes k s Q := by
  have hk := (List.getElem?_eq_some_iff.mp h).1
  exact .jump h rfl (offset_add_words hk.le hj htarget) hrest

/-- A conditional branch completes on both sides. -/
lemma completes_branchCondition {condition : Condition} {words : BitVec 19}
    (h : b.items[k]? = some (.branchCondition condition words, bytes))
    (hj : j ≤ b.items.length) (htarget : (k : Int) + words.toInt = j)
    (htaken : condition.holds s = true → b.Completes j s Q)
    (hpassed : condition.holds s = false → b.Completes (k + 1) s Q) : b.Completes k s Q := by
  have hk := (List.getElem?_eq_some_iff.mp h).1
  cases hcondition : condition.holds s with
  | true =>
      exact .jump h (if_pos hcondition) (offset_add_words hk.le hj htarget) (htaken hcondition)
  | false =>
      have hnot : ¬ condition.holds s = true := by simp [hcondition]
      exact .next h (if_neg hnot) (hpassed hcondition)

/-- A branch on zero completes on both sides. -/
lemma completes_branchZero {source : Register} {words : BitVec 19}
    (h : b.items[k]? = some (.branchZero source words, bytes))
    (hj : j ≤ b.items.length) (htarget : (k : Int) + words.toInt = j)
    (htaken : s.read source = 0 → b.Completes j s Q)
    (hpassed : s.read source ≠ 0 → b.Completes (k + 1) s Q) : b.Completes k s Q := by
  have hk := (List.getElem?_eq_some_iff.mp h).1
  by_cases hzero : s.read source = 0
  · exact .jump h (if_pos hzero) (offset_add_words hk.le hj htarget) (htaken hzero)
  · exact .next h (if_neg hzero) (hpassed hzero)

end rules

end UniJit.Lib.AArch64
