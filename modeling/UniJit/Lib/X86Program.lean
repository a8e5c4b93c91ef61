import UniJit.Lib.MachineCode
import UniJit.Lib.X86

/-!
# A fragment of x86-64 for programs

The instructions of code that branches, divides, shifts and works on operands of every width: the
bytes of an instruction, with its operand-size and lock prefixes, and what it does.

The three rules that the width of an operand decides are in `State.setWidth`: a 64-bit result
replaces its register, a 32-bit result clears the upper half, and a narrower one keeps the bits
above it. A division traps when the divisor is zero and when the quotient does not fit. Shifts and
divisions leave the flags as they are here; no code of the fragment reads them there.
-/

namespace UniJit.Lib.X86Program

open UniJit.Lib.MachineCode
open UniJit.Lib.X86 (Register regField rmField decode32 decodeDisplacement)

/-- The width of an operand. -/
inductive Width
  | byte | word | doubleword | quadword
  deriving DecidableEq, Repr

/-- The bytes of a width. -/
def Width.bytes : Width → Nat
  | .byte => 1
  | .word => 2
  | .doubleword => 4
  | .quadword => 8

/-- The conditions of branches. -/
inductive Condition
  | aboveEqual | equal | notEqual | negative | nonnegative
  deriving DecidableEq, Repr

/-- The arithmetic opcodes. -/
inductive BinaryOpcode
  | add | or | and | subtract | xor | compare
  deriving DecidableEq, Repr

/-- The instructions of this subset. -/
inductive Instruction
  | move (destination source : Register)
  | moveImmediate (destination : Register) (immediate : BitVec 64)
  | load (width : Width) (destination base : Register) (displacement : BitVec 32)
  | store (width : Width) (source base : Register) (displacement : BitVec 32)
  | zeroExtend (width : Width) (destination source : Register)
  | exchange (width : Width) (register base : Register) (displacement : BitVec 32)
  | exchangeAdd (width : Width) (register base : Register) (displacement : BitVec 32)
  | compareExchange (width : Width) (desired base : Register) (displacement : BitVec 32)
  | binary (opcode : BinaryOpcode) (destination source : Register)
  | binaryImmediate (opcode : BinaryOpcode) (destination : Register) (immediate : BitVec 8)
  | test (lhs rhs : Register)
  /-- Shifts by the low byte of register 1. -/
  | shiftLeft (destination : Register)
  | shiftRight (destination : Register)
  | negate (destination : Register)
  /-- The sign of register 0, spread over register 2. -/
  | spreadSign
  /-- Registers 2 and 0, joined and divided. -/
  | divide (divisor : Register)
  | jump (displacement : BitVec 32)
  | branch (condition : Condition) (displacement : BitVec 32)
  deriving DecidableEq, Repr

/-! ## Decoding -/

/-- The prefix that extends registers and widths. -/
def isRex (byte : BitVec 8) : Bool := byte &&& 0xF0 == 0x40

/-- The condition of a branch's opcode. -/
def conditionOf (opcode : BitVec 8) : Option Condition :=
  if opcode = 0x83 then some .aboveEqual
  else if opcode = 0x84 then some .equal
  else if opcode = 0x85 then some .notEqual
  else if opcode = 0x88 then some .negative
  else if opcode = 0x89 then some .nonnegative
  else none

/-- The opcodes with two registers; the source is in the `reg` field. -/
def binaryOf (opcode : BitVec 8) : Option BinaryOpcode :=
  if opcode = 0x01 then some .add
  else if opcode = 0x09 then some .or
  else if opcode = 0x21 then some .and
  else if opcode = 0x29 then some .subtract
  else if opcode = 0x31 then some .xor
  else if opcode = 0x39 then some .compare
  else none

/-- The operation of a group with an 8-bit immediate. -/
def immediateOf (digit : Nat) : Option BinaryOpcode :=
  if digit = 0 then some .add
  else if digit = 1 then some .or
  else if digit = 4 then some .and
  else if digit = 5 then some .subtract
  else if digit = 6 then some .xor
  else if digit = 7 then some .compare
  else none

/-- The prefixes of an instruction: a lock, the width they leave to opcodes of variable width, and
the REX byte. -/
structure Prefixes where
  lock : Bool
  width : Width
  rex : BitVec 8
  deriving DecidableEq, Repr

/-- What decoding gives: an instruction and the bytes behind it. -/
abbrev Reading := Option (Instruction × List (BitVec 8))

/-- An instruction with a memory operand, whose ModRM byte has been read. -/
def readMemory (modrm : BitVec 8) (code : List (BitVec 8)) (f : BitVec 32 → Instruction) :
    Reading :=
  if modrm.toNat / 64 = 2 then
    (decodeDisplacement modrm code).map fun (displacement, rest) => (f displacement, rest)
  else none

/-- The width of an opcode with a byte form: the form is the low bit of the opcode. -/
def widthOf (p : Prefixes) (opcode : BitVec 8) : Width :=
  if opcode.toNat % 2 = 0 then .byte else p.width

/-- The two-byte opcodes. -/
def readExtended (p : Prefixes) : List (BitVec 8) → Reading
  | opcode :: modrm :: code =>
      let reg := regField p.rex modrm
      let rm := rmField p.rex modrm
      if opcode = 0xB6 ∨ opcode = 0xB7 then
        let width := if opcode = 0xB6 then .byte else .word
        if p.lock ∨ p.width ≠ .quadword then none
        else if modrm.toNat / 64 = 3 then some (.zeroExtend width reg rm, code)
        else readMemory modrm code (.load width reg rm)
      else if opcode = 0xC0 ∨ opcode = 0xC1 then
        if p.lock then readMemory modrm code (.exchangeAdd (widthOf p opcode) reg rm) else none
      else if opcode = 0xB0 ∨ opcode = 0xB1 then
        if p.lock then readMemory modrm code (.compareExchange (widthOf p opcode) reg rm) else none
      else none
  | _ => none

/-- The groups of opcodes that the `reg` field of the ModRM byte extends, on 64-bit registers. -/
def readGroup (p : Prefixes) (opcode modrm : BitVec 8) (code : List (BitVec 8)) : Reading :=
  let digit := modrm.toNat / 8 % 8
  let rm := rmField p.rex modrm
  if opcode = 0x83 then
    match code with
    | immediate :: rest => (immediateOf digit).map fun o => (.binaryImmediate o rm immediate, rest)
    | [] => none
  else if opcode = 0xD3 then
    if digit = 4 then some (.shiftLeft rm, code)
    else if digit = 5 then some (.shiftRight rm, code)
    else none
  else if opcode = 0xF7 then
    if digit = 3 then some (.negate rm, code)
    else if digit = 7 then some (.divide rm, code)
    else none
  else none

/-- The opcodes with a ModRM byte. -/
def readModrm (p : Prefixes) (opcode modrm : BitVec 8) (code : List (BitVec 8)) : Reading :=
  let reg := regField p.rex modrm
  let rm := rmField p.rex modrm
  if p.lock then none
  else if modrm.toNat / 64 = 2 then
    if opcode = 0x8B then
      if p.width = .word then none else readMemory modrm code (.load p.width reg rm)
    else if opcode = 0x88 ∨ opcode = 0x89 then
      readMemory modrm code (.store (widthOf p opcode) reg rm)
    else if opcode = 0x86 ∨ opcode = 0x87 then
      readMemory modrm code (.exchange (widthOf p opcode) reg rm)
    else none
  else if modrm.toNat / 64 = 3 then
    if opcode = 0x8B ∧ p.width = .doubleword then some (.zeroExtend .doubleword reg rm, code)
    else if p.width ≠ .quadword then none
    else if opcode = 0x8B then some (.move reg rm, code)
    else if opcode = 0x85 then some (.test rm reg, code)
    else
      match binaryOf opcode with
      | some o => some (.binary o rm reg, code)
      | none => readGroup p opcode modrm code
  else none

/-- Decodes behind the prefixes. -/
def readOpcode (p : Prefixes) : List (BitVec 8) → Reading
  | [] => none
  | opcode :: code =>
      if opcode = 0x0F then readExtended p code
      else if opcode = 0x99 then
        if p.lock ∨ p.width ≠ .quadword then none else some (.spreadSign, code)
      else if opcode &&& 0xF8 = 0xB8 then
        if p.lock ∨ p.width ≠ .quadword ∨ code.length < 8 then none
        else some (.moveImmediate (rmField p.rex opcode) (ofLeBytes 64 (code.take 8)), code.drop 8)
      else
        match code with
        | modrm :: code => readModrm p opcode modrm code
        | [] => none

/-- An instruction from its REX byte on. -/
def readRex (lock operandSize : Bool) : List (BitVec 8) → Reading
  | [] => none
  | rex :: code =>
      if isRex rex then
        let width :=
          if rex &&& 0x08 ≠ 0 then .quadword else if operandSize then .word else .doubleword
        readOpcode { lock := lock, width := width, rex := rex } code
      else none

/-- A conditional branch, after its first byte. -/
def readBranch : List (BitVec 8) → Reading
  | [] => none
  | opcode :: code =>
      (conditionOf opcode).bind fun condition =>
        (decode32 code).map fun (displacement, rest) => (.branch condition displacement, rest)

/-- The instruction at the front of some bytes, with what follows it. -/
def readInstruction : List (BitVec 8) → Reading
  | [] => none
  | first :: code =>
      if first = 0xE9 then
        (decode32 code).map fun (displacement, rest) => (.jump displacement, rest)
      else if first = 0x0F then readBranch code
      else if first = 0xF0 then
        if code.head? = some 0x66 then readRex true true code.tail else readRex true false code
      else if first = 0x66 then readRex false true code
      else readRex false false (first :: code)

/-- Decodes one instruction and its length. -/
def decode (code : List (BitVec 8)) : Option (Instruction × Nat) :=
  (readInstruction code).map fun (i, rest) => (i, code.length - rest.length)

/-! ## Execution -/

/-- Registers, memory and flags. -/
structure State where
  registers : Register → BitVec 64
  memory : BitVec 64 → BitVec 8
  carry : Bool := false
  zero : Bool := false
  sign : Bool := false

/-- The low bits of a word. -/
def Width.truncate (w : Width) (value : BitVec 64) : BitVec 64 :=
  (value.setWidth (8 * w.bytes)).setWidth 64

/-- The bytes at an address as a number. -/
def Width.read (w : Width) (memory : BitVec 64 → BitVec 8) (address : BitVec 64) : BitVec 64 :=
  ofLeBytes 64 ((List.range w.bytes).map fun i => memory (address + BitVec.ofNat 64 i))

/-- The low bytes of a word, written to an address. -/
def Width.write (w : Width) (memory : BitVec 64 → BitVec 8) (address value : BitVec 64) :
    BitVec 64 → BitVec 8 :=
  fun a =>
    let i := (a - address).toNat
    if i < w.bytes then (value >>> (8 * i)).setWidth 8 else memory a

/-- What a register holds after a result of some width. -/
def Width.merge (w : Width) (old value : BitVec 64) : BitVec 64 :=
  match w with
  | .quadword => value
  | .doubleword => Width.truncate .doubleword value
  | w => old &&& ~~~(w.truncate (BitVec.allOnes 64)) ||| w.truncate value

namespace State

/-- Writes a register. -/
def set (s : State) (r : Register) (value : BitVec 64) : State :=
  { s with registers := Function.update s.registers r value }

/-- Writes the part of a register that an operation of a width writes. -/
def setWidth (s : State) (w : Width) (r : Register) (value : BitVec 64) : State :=
  s.set r (w.merge (s.registers r) value)

/-- Exchanges the memory. -/
def setMemory (s : State) (memory : BitVec 64 → BitVec 8) : State := { s with memory := memory }

/-- The flags of a result of some width. -/
def setFlags (s : State) (w : Width) (carry : Bool) (result : BitVec 64) : State :=
  { s with
    carry := carry
    zero := w.truncate result == 0
    sign := result.getLsbD (8 * w.bytes - 1) }

/-- The flags of a comparison. -/
def compare (s : State) (w : Width) (lhs rhs : BitVec 64) : State :=
  s.setFlags w (decide ((w.truncate lhs).toNat < (w.truncate rhs).toNat)) (lhs - rhs)

/-- The address of an operand. -/
def address (s : State) (base : Register) (displacement : BitVec 32) : BitVec 64 :=
  s.registers base + displacement.signExtend 64

end State

/-- Whether a condition holds of the flags. -/
def Condition.holds (s : State) : Condition → Bool
  | .aboveEqual => !s.carry
  | .equal => s.zero
  | .notEqual => !s.zero
  | .negative => s.sign
  | .nonnegative => !s.sign

/-- A binary operation on a register. -/
def binary (o : BinaryOpcode) (destination : Register) (rhs : BitVec 64) (s : State) : State :=
  let lhs := s.registers destination
  let logic (result : BitVec 64) := (s.set destination result).setFlags .quadword false result
  match o with
  | .add =>
      (s.set destination (lhs + rhs)).setFlags .quadword
        (decide ((lhs + rhs).toNat < lhs.toNat)) (lhs + rhs)
  | .subtract => (s.compare .quadword lhs rhs).set destination (lhs - rhs)
  | .compare => s.compare .quadword lhs rhs
  | .and => logic (lhs &&& rhs)
  | .or => logic (lhs ||| rhs)
  | .xor => logic (lhs ^^^ rhs)

/-- The instructions that read and write memory in one step. -/
def exchangeAdd (w : Width) (r : Register) (address : BitVec 64) (s : State) : State :=
  let observed := w.read s.memory address
  let sum := observed + s.registers r
  ((s.setMemory (w.write s.memory address sum)).setFlags w
    (decide ((w.truncate sum).toNat < observed.toNat)) sum).setWidth w r observed

/-- The locked compare-exchange. -/
def compareExchange (w : Width) (desired : Register) (address : BitVec 64) (s : State) : State :=
  let observed := w.read s.memory address
  let s' := s.compare w (s.registers 0) observed
  if w.truncate (s.registers 0) = observed then
    s'.setMemory (w.write s.memory address (s.registers desired))
  else s'.setWidth w 0 observed

/-- The quotient and remainder of registers 2 and 0 by a divisor, if there is a quotient. -/
def quotients (s : State) (divisor : BitVec 64) : Option (BitVec 64 × BitVec 64) :=
  let dividend : Int := (s.registers 2 ++ s.registers 0).toInt
  let quotient := dividend.tdiv divisor.toInt
  if divisor = 0 ∨ quotient < -2 ^ 63 ∨ 2 ^ 63 ≤ quotient then none
  else some (BitVec.ofInt 64 quotient, BitVec.ofInt 64 (dividend.tmod divisor.toInt))

/-- A displacement counts from the end of its instruction. -/
def step (i : Instruction) (length : Nat) (s : State) : Effect State :=
  match i with
  | .move destination source => .next (s.set destination (s.registers source))
  | .moveImmediate destination immediate => .next (s.set destination immediate)
  | .load w destination base displacement =>
      .next (s.set destination (w.read s.memory (s.address base displacement)))
  | .store w source base displacement =>
      .next (s.setMemory (w.write s.memory (s.address base displacement) (s.registers source)))
  | .zeroExtend w destination source =>
      .next (s.set destination (w.truncate (s.registers source)))
  | .exchange w r base displacement =>
      let address := s.address base displacement
      .next ((s.setMemory (w.write s.memory address (s.registers r))).setWidth w r
        (w.read s.memory address))
  | .exchangeAdd w r base displacement => .next (exchangeAdd w r (s.address base displacement) s)
  | .compareExchange w desired base displacement =>
      .next (compareExchange w desired (s.address base displacement) s)
  | .binary o destination source => .next (binary o destination (s.registers source) s)
  | .binaryImmediate o destination immediate =>
      .next (binary o destination (immediate.signExtend 64) s)
  | .test lhs rhs => .next (s.setFlags .quadword false (s.registers lhs &&& s.registers rhs))
  | .shiftLeft destination =>
      .next (s.set destination (s.registers destination <<< ((s.registers 1).toNat % 64)))
  | .shiftRight destination =>
      .next (s.set destination (s.registers destination >>> ((s.registers 1).toNat % 64)))
  | .negate destination =>
      let result := 0 - s.registers destination
      .next ((s.setFlags .quadword (s.registers destination != 0) result).set destination result)
  | .spreadSign => .next (s.set 2 (if (s.registers 0).msb then BitVec.allOnes 64 else 0))
  | .divide divisor =>
      match quotients s (s.registers divisor) with
      | some (quotient, remainder) => .next ((s.set 0 quotient).set 2 remainder)
      | none => .trap
  | .jump displacement => .jump (length + displacement.toInt) s
  | .branch condition displacement =>
      if condition.holds s then .jump (length + displacement.toInt) s else .next s

/-- The fragment as an instruction set. -/
def x86 : Isa Instruction State where
  decode := decode
  step := step

/-- Bytes that are read as an instruction encode it. -/
lemma encodes_of_read {i : Instruction} {bytes : List (BitVec 8)}
    (h : ∀ rest, readInstruction (bytes ++ rest) = some (i, rest)) : x86.Encodes i bytes := by
  intro rest
  show decode (bytes ++ rest) = _
  rw [decode, h rest]
  simp

/-! ## Reading states -/

section states

variable (s : State) (w : Width)

@[simp] lemma truncate_quadword (value : BitVec 64) : Width.truncate .quadword value = value := by
  simp [Width.truncate, Width.bytes]

lemma State.set_registers (r q : Register) (value : BitVec 64) :
    (s.set r value).registers q = if q = r then value else s.registers q := by
  simp [State.set, Function.update_apply]

@[simp] lemma State.set_memory (r : Register) (value : BitVec 64) :
    (s.set r value).memory = s.memory := rfl

@[simp] lemma State.setFlags_registers (carry : Bool) (result : BitVec 64) :
    (s.setFlags w carry result).registers = s.registers := rfl

@[simp] lemma State.setFlags_memory (carry : Bool) (result : BitVec 64) :
    (s.setFlags w carry result).memory = s.memory := rfl

@[simp] lemma State.compare_registers (lhs rhs : BitVec 64) :
    (s.compare w lhs rhs).registers = s.registers := rfl

@[simp] lemma State.compare_memory (lhs rhs : BitVec 64) :
    (s.compare w lhs rhs).memory = s.memory := rfl

variable (carry : Bool) (lhs rhs result : BitVec 64)

/-- Equality is a zero result. -/
lemma holds_equal_setFlags :
    Condition.holds (s.setFlags .quadword carry result) .equal = (result == 0) := by
  simp [Condition.holds, State.setFlags]

/-- Negative is the sign bit of the result. -/
lemma holds_negative_setFlags :
    Condition.holds (s.setFlags .quadword carry result) .negative = result.msb := by
  rw [BitVec.msb_eq_getLsbD_last]
  rfl

/-- Nonnegative is a clear sign bit of the result. -/
lemma holds_nonnegative_setFlags :
    Condition.holds (s.setFlags .quadword carry result) .nonnegative = !result.msb := by
  rw [BitVec.msb_eq_getLsbD_last]
  rfl

/-- Equality of what was compared. -/
lemma holds_equal_compare :
    Condition.holds (s.compare .quadword lhs rhs) .equal = (lhs == rhs) := by
  rw [State.compare, holds_equal_setFlags, Bool.eq_iff_iff, beq_iff_eq, beq_iff_eq]
  exact BitVec.sub_eq_iff_eq_add.trans (by simp)

/-- The unsigned order of what was compared. -/
lemma holds_aboveEqual_compare :
    Condition.holds (s.compare .quadword lhs rhs) .aboveEqual = decide (rhs.toNat ≤ lhs.toNat) := by
  simp [Condition.holds, State.compare, State.setFlags, ← decide_not]

end states

/-! ## Operands of every width -/

section widths

variable (w : Width) (old value : BitVec 64)

/-- The bits that a width keeps. -/
lemma getLsbD_truncate (i : Nat) :
    (w.truncate value).getLsbD i = (decide (i < 8 * w.bytes) && value.getLsbD i) := by
  by_cases hi : i < 64
  · simp [Width.truncate, BitVec.getLsbD_setWidth, hi]
  · simp [BitVec.getLsbD_of_ge _ _ (not_lt.mp hi)]

/-- Cutting off twice is cutting off once. -/
lemma truncate_truncate : w.truncate (w.truncate value) = w.truncate value := by
  apply BitVec.eq_of_getLsbD_eq
  intro i _
  simp only [getLsbD_truncate, Bool.and_self_left]

/-- What is cut off is not part of the cell. -/
lemma setWidth_truncate : (w.truncate value).setWidth (8 * w.bytes) = value.setWidth (8 * w.bytes) := by
  apply BitVec.eq_of_getLsbD_eq
  intro i hi
  simp [getLsbD_truncate, hi]

/-- Equal truncations are equal cells. -/
lemma truncate_eq_iff (other : BitVec 64) :
    w.truncate value = w.truncate other ↔
      value.setWidth (8 * w.bytes) = other.setWidth (8 * w.bytes) := by
  refine ⟨fun h => ?_, fun h => congrArg (BitVec.setWidth 64) h⟩
  rw [← setWidth_truncate, h, setWidth_truncate]

/-- The low bits of a register are those of the last result. -/
lemma truncate_merge : w.truncate (w.merge old value) = w.truncate value := by
  apply BitVec.eq_of_getLsbD_eq
  intro i hi
  have hnarrow : (decide (i < 8 * w.bytes) && (old &&& ~~~w.truncate (BitVec.allOnes 64) |||
      w.truncate value).getLsbD i) = (decide (i < 8 * w.bytes) && value.getLsbD i) := by
    simp only [BitVec.getLsbD_or, BitVec.getLsbD_and, BitVec.getLsbD_not, getLsbD_truncate,
      BitVec.getLsbD_allOnes, hi]
    by_cases hinside : i < 8 * w.bytes <;> simp [hinside]
  rw [getLsbD_truncate, getLsbD_truncate]
  cases w with
  | byte => exact hnarrow
  | word => exact hnarrow
  | doubleword => simp [Width.merge, getLsbD_truncate]
  | quadword => rfl

/-- A zero-extended register stays zero-extended. -/
lemma merge_of_truncated (h : w.truncate old = old) : w.merge old value = w.truncate value := by
  have hnarrow : old &&& ~~~w.truncate (BitVec.allOnes 64) ||| w.truncate value =
      w.truncate value := by
    apply BitVec.eq_of_getLsbD_eq
    intro i hi
    rw [← h]
    simp only [BitVec.getLsbD_or, BitVec.getLsbD_and, BitVec.getLsbD_not, getLsbD_truncate,
      BitVec.getLsbD_allOnes, hi]
    by_cases hinside : i < 8 * w.bytes <;> simp [hinside]
  cases w with
  | byte => exact hnarrow
  | word => exact hnarrow
  | doubleword => rfl
  | quadword => exact (truncate_quadword value).symm

/-- A difference at the width of the comparison. -/
lemma holds_notEqual_compare (s : State) (lhs rhs : BitVec 64) :
    Condition.holds (s.compare w lhs rhs) .notEqual = (w.truncate lhs != w.truncate rhs) := by
  have hbits : 8 * w.bytes ≤ 64 := by cases w <;> decide
  have hzero : w.truncate (lhs - rhs) = 0 ↔ w.truncate lhs = w.truncate rhs := by
    have htruncated : w.truncate 0 = 0 := by cases w <;> rfl
    have hnothing : (0 : BitVec 64).setWidth (8 * w.bytes) = 0#_ := BitVec.setWidth_zero ..
    rw [← htruncated, truncate_eq_iff, truncate_eq_iff, BitVec.sub_eq_add_neg,
      BitVec.setWidth_add _ _ hbits, BitVec.setWidth_neg_of_le hbits, ← BitVec.sub_eq_add_neg,
      hnothing, BitVec.sub_eq_iff_eq_add, BitVec.zero_add]
  show (!(w.truncate (lhs - rhs) == 0)) = !(w.truncate lhs == w.truncate rhs)
  rw [Bool.not_inj_iff, Bool.eq_iff_iff, beq_iff_eq, beq_iff_eq]
  exact hzero

end widths

/-! ## Division -/

/-- A dividend whose upper half is the sign of its lower half. -/
lemma toInt_spread (x : BitVec 64) :
    ((if x.msb then BitVec.allOnes 64 else 0) ++ x : BitVec 128).toInt = x.toInt := by
  have hextend := BitVec.signExtend_eq_append_of_le (w := 64) (v := 128) (x := x) (by decide)
  have htoInt := BitVec.toInt_signExtend_of_le (w := 64) (v := 128) (x := x) (by decide)
  rw [hextend] at htoInt
  exact htoInt

/-- A division of a word by a divisor that is not `-1` does not overflow. -/
lemma quotients_of_spread {s : State} {x y : BitVec 64} (hlow : s.registers 0 = x)
    (hhigh : s.registers 2 = if x.msb then BitVec.allOnes 64 else 0) (hzero : y ≠ 0)
    (hone : y ≠ -1) : quotients s y = some (x.sdiv y, x.srem y) := by
  have hquotient : (x.sdiv y).toInt = x.toInt.tdiv y.toInt :=
    BitVec.toInt_sdiv_of_ne_or_ne x y (Or.inr hone)
  have hlower := BitVec.le_toInt (x.sdiv y)
  have hupper := BitVec.toInt_lt (x := x.sdiv y)
  have hfits : ¬ (y = 0 ∨ x.toInt.tdiv y.toInt < -2 ^ 63 ∨ 2 ^ 63 ≤ x.toInt.tdiv y.toInt) := by
    rw [← hquotient]
    rintro (h | h | h)
    · exact hzero h
    · omega
    · omega
  unfold quotients
  rw [hhigh, hlow, toInt_spread]
  simp only [if_neg hfits]
  rw [← hquotient, BitVec.ofInt_toInt, ← BitVec.toInt_srem, BitVec.ofInt_toInt]

/-! ## Rules -/

section rules

variable {b : Block x86} {k j : Nat} {bytes : List (BitVec 8)} {displacement : BitVec 32}
  {s : State} {Q : State → Prop}

/-- A jump completes where its target does. -/
lemma completes_jump (h : b.items[k]? = some (.jump displacement, bytes))
    (htarget : (b.offset k : Int) + (bytes.length + displacement.toInt) = b.offset j)
    (hrest : b.Completes j s Q) : b.Completes k s Q :=
  .jump h rfl htarget hrest

/-- A branch completes on both sides. -/
lemma completes_branch {condition : Condition}
    (h : b.items[k]? = some (.branch condition displacement, bytes))
    (htarget : (b.offset k : Int) + (bytes.length + displacement.toInt) = b.offset j)
    (htaken : condition.holds s = true → b.Completes j s Q)
    (hpassed : condition.holds s = false → b.Completes (k + 1) s Q) : b.Completes k s Q := by
  cases hcondition : condition.holds s with
  | true => exact .jump h (if_pos hcondition) htarget (htaken hcondition)
  | false =>
      have hnot : ¬ condition.holds s = true := by simp [hcondition]
      exact .next h (if_neg hnot) (hpassed hcondition)

end rules

end UniJit.Lib.X86Program
