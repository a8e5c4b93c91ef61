import Mathlib
import UniJit.Lib.LittleEndian

/-!
# PC-relative instructions

How three instruction sets read the instructions that speak about a place relative to their own:
branches, the pair that loads a word from behind the code, and, for comparison with the latter, the
moves that make up a word of immediates. Only what such an instruction says is decoded, the
displacement as a number of bytes.

Displacements of RISC-V and AArch64 count from the instruction, those of x86-64 from the end of it.
-/

namespace UniJit.Lib.PcRelative

/-! ## Fields of a number -/

/-- The bits of a number from some bit on are those of a shifted number. -/
lemma extractLsb'_ofInt {w start n : Nat} (h : start + n ≤ w) (x : Int) :
    (BitVec.ofInt w x).extractLsb' start n = BitVec.ofInt n (x / 2 ^ start) := by
  have hpow : (2 : Int) ^ w = 2 ^ (w - start) * 2 ^ start := by
    rw [← pow_add, Nat.sub_add_cancel (by omega)]
  have hmod : (x % 2 ^ w) / 2 ^ start % 2 ^ n = x / 2 ^ start % 2 ^ n := by
    have hsplit : x % 2 ^ w = x + -(2 ^ (w - start) * (x / 2 ^ w)) * 2 ^ start := by
      have hdiv := Int.emod_add_mul_ediv x (2 ^ w)
      generalize x / 2 ^ w = q at hdiv ⊢
      calc x % 2 ^ w = x - 2 ^ w * q := by omega
        _ = x + -(2 ^ (w - start) * q) * 2 ^ start := by
            rw [hpow]
            ring
    have hdvd : (2 : Int) ^ n ∣ 2 ^ (w - start) := pow_dvd_pow 2 (by omega)
    rw [hsplit, Int.add_mul_ediv_right _ _ (by positivity)]
    apply Int.emod_eq_emod_iff_emod_sub_eq_zero.mpr
    apply Int.emod_eq_zero_of_dvd
    simpa using Dvd.dvd.mul_right hdvd _
  apply BitVec.eq_of_toNat_eq
  have hnonneg : 0 ≤ x % 2 ^ w := Int.emod_nonneg _ (by positivity)
  rw [BitVec.extractLsb'_toNat, BitVec.toNat_ofInt, BitVec.toNat_ofInt, Nat.shiftRight_eq_div_pow]
  apply Int.ofNat_inj.mp
  push_cast
  rw [Int.toNat_of_nonneg hnonneg, Int.toNat_of_nonneg (Int.emod_nonneg _ (by positivity)), hmod]

/-- A field of a number that is wide enough reads as the shifted number. -/
lemma toInt_extractLsb'_ofInt {w start n : Nat} {x : Int} (h : start + (n + 1) ≤ w)
    (hlow : -2 ^ n ≤ x / 2 ^ start) (hhigh : x / 2 ^ start < 2 ^ n) :
    ((BitVec.ofInt w x).extractLsb' start (n + 1)).toInt = x / 2 ^ start := by
  have hpow : ((2 ^ (n + 1) : Nat) : Int) = 2 * 2 ^ n := by
    push_cast
    ring
  rw [extractLsb'_ofInt h, BitVec.toInt_ofInt]
  apply Int.bmod_eq_of_le <;> omega

/-! ## RISC-V -/

namespace RiscV

/-- What a branch compares its registers for. -/
inductive Comparison
  | equal | notEqual | less | notLess | lessUnsigned | notLessUnsigned
  deriving DecidableEq, Repr

/-- The function field of a comparison. -/
def Comparison.code : Comparison → BitVec 3
  | .equal => 0
  | .notEqual => 1
  | .less => 4
  | .notLess => 5
  | .lessUnsigned => 6
  | .notLessUnsigned => 7

/-- The comparison with a function field. -/
def comparisonOf (code : BitVec 3) : Option Comparison :=
  [Comparison.equal, .notEqual, .less, .notLess, .lessUnsigned, .notLessUnsigned].find?
    (·.code = code)

/-- The position-dependent instructions of this set. -/
inductive Instruction
  | branch (comparison : Comparison) (lhs rhs : BitVec 5) (displacement : Int)
  | jump (destination : BitVec 5) (displacement : Int)
  | addUpper (destination : BitVec 5) (immediate : BitVec 20)
  | loadDouble (destination base : BitVec 5) (immediate : BitVec 12)
  deriving DecidableEq, Repr

/-- The scattered displacement of a branch; its lowest bit is not stored. -/
def branchField (word : BitVec 32) : BitVec 13 :=
  word.extractLsb' 31 1 ++ word.extractLsb' 7 1 ++ word.extractLsb' 25 6 ++
    word.extractLsb' 8 4 ++ 0#1

/-- The scattered displacement of a jump; its lowest bit is not stored. -/
def jumpField (word : BitVec 32) : BitVec 21 :=
  word.extractLsb' 31 1 ++ word.extractLsb' 12 8 ++ word.extractLsb' 20 1 ++
    word.extractLsb' 21 10 ++ 0#1

/-- Decodes one of them. -/
def decode (word : BitVec 32) : Option Instruction :=
  if word.extractLsb' 0 7 = 0b1100011#7 then
    (comparisonOf (word.extractLsb' 12 3)).map fun comparison =>
      .branch comparison (word.extractLsb' 15 5) (word.extractLsb' 20 5) (branchField word).toInt
  else if word.extractLsb' 0 7 = 0b1101111#7 then
    some (.jump (word.extractLsb' 7 5) (jumpField word).toInt)
  else if word.extractLsb' 0 7 = 0b0010111#7 then
    some (.addUpper (word.extractLsb' 7 5) (word.extractLsb' 12 20))
  else if word.extractLsb' 0 7 = 0b0000011#7 ∧ word.extractLsb' 12 3 = 0b011#3 then
    some (.loadDouble (word.extractLsb' 7 5) (word.extractLsb' 15 5) (word.extractLsb' 20 12))
  else none

/-- The address that a pair at `pc` loads from: the first instruction puts a place near the code
in a register, which must not be the zero register, and the second loads relative to it. -/
def pairAddress (pc : BitVec 64) (first second : BitVec 32) : Option (BitVec 64) :=
  match decode first, decode second with
  | some (.addUpper upper high), some (.loadDouble _ base low) =>
      if base = upper ∧ upper ≠ 0 then
        some (pc + (high ++ 0#12).signExtend 64 + low.signExtend 64)
      else none
  | _, _ => none

end RiscV

/-! ## AArch64 -/

namespace AArch64

/-- The branches of this set. -/
inductive Branch
  | always
  | onCondition (condition : BitVec 4)
  | onZero (source : BitVec 5)
  | onNonzero (source : BitVec 5)
  deriving DecidableEq, Repr

/-- A branch and its displacement. -/
def decodeBranch (word : BitVec 32) : Option (Branch × Int) :=
  let words19 := (word.extractLsb' 5 19 ++ 0#2).toInt
  if word.extractLsb' 26 6 = 0b000101#6 then
    some (.always, (word.extractLsb' 0 26 ++ 0#2).toInt)
  else if word.extractLsb' 24 8 = 0b01010100#8 ∧ word.getLsbD 4 = false then
    some (.onCondition (word.extractLsb' 0 4), words19)
  else if word.extractLsb' 24 8 = 0b10110100#8 then
    some (.onZero (word.extractLsb' 0 5), words19)
  else if word.extractLsb' 24 8 = 0b10110101#8 then
    some (.onNonzero (word.extractLsb' 0 5), words19)
  else none

/-- A move of sixteen bits into a half of a register, with the other halves kept or cleared. -/
structure MoveWide where
  keep : Bool
  destination : BitVec 5
  half : BitVec 2
  immediate : BitVec 16
  deriving DecidableEq, Repr

/-- Decodes a wide move. -/
def decodeMove (word : BitVec 32) : Option MoveWide :=
  let fields := fun keep : Bool =>
    { keep := keep, destination := word.extractLsb' 0 5, half := word.extractLsb' 21 2
      immediate := word.extractLsb' 5 16 : MoveWide }
  if word.extractLsb' 23 9 = 0b110100101#9 then some (fields false)
  else if word.extractLsb' 23 9 = 0b111100101#9 then some (fields true)
  else none

/-- What the destination holds after a move. -/
def MoveWide.apply (m : MoveWide) (old : BitVec 64) : BitVec 64 :=
  let low := 16 * m.half.toNat
  let moved := m.immediate.setWidth 64 <<< low
  if m.keep then old &&& ~~~(0xFFFF#64 <<< low) ||| moved else moved

/-- Run moves that all have the same destination. -/
def runMoves (destination : BitVec 5) : List (BitVec 32) → BitVec 64 → Option (BitVec 64)
  | [], value => some value
  | word :: words, value =>
      (decodeMove word).bind fun m =>
        if m.destination = destination then runMoves destination words (m.apply value) else none

end AArch64

/-! ## x86-64 -/

namespace X86

/-- The branches of this set. -/
inductive Branch
  | always
  | onCondition (condition : BitVec 4)
  deriving DecidableEq, Repr

/-- Four bytes as a displacement. -/
def displacement32 (code : List (BitVec 8)) : Int := (ofLeBytes 32 (code.take 4)).toInt

/-- A conditional branch after its first byte. -/
def decodeConditional : List (BitVec 8) → Option (Branch × Nat × Int)
  | [] => none
  | opcode :: code =>
      if opcode.extractLsb' 4 4 = 8#4 ∧ 4 ≤ code.length then
        some (.onCondition (opcode.extractLsb' 0 4), 6, 6 + displacement32 code)
      else none

/-- A branch with a displacement of 32 bits at the front of some bytes, its length, and where it
leads, counted from its start. -/
def decodeBranch : List (BitVec 8) → Option (Branch × Nat × Int)
  | [] => none
  | first :: code =>
      if first = 0xE9 then
        if 4 ≤ code.length then some (.always, 5, 5 + displacement32 code) else none
      else if first = 0x0F then decodeConditional code
      else none

end X86

end UniJit.Lib.PcRelative
