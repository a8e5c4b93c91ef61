import UniJit.Jit.BranchPatches

/-!
# Constants in code

AArch64 makes a constant up from moves of sixteen bits each, RISC-V loads it from a pool behind the
code. The moves leave exactly the constant behind (`runMoves_moveWords`).

The pool is appended once the rest of the code is complete, and each use is then patched with the
distance to its slot. The distance is split into a rounded high part and a low part with a sign.
The check in front of the split bounds the distance by the largest signed word of 32 bits, but the
rounding may still carry into the sign of the high part: in the last 2048 bytes of the range the
pair misses its slot by `2 ^ 32` (`pairAddress_eq`).
-/

namespace UniJit.Jit

open UniJit.Ir UniJit.Lib UniJit.Jit.CodeBuffer

/-! ## Moves on AArch64 -/

namespace AArch64

open UniJit.Lib.AArch64 (Register)
open UniJit.Lib.PcRelative.AArch64 (MoveWide decodeMove runMoves)
open Assembler

/-- A move of sixteen bits. -/
def moveWideWord (keep : Bool) (half : BitVec 2) (immediate : BitVec 16)
    (destination : Register) : BitVec 32 :=
  (if keep then 0xF2800000 else 0xD2800000) ||| half.setWidth 32 <<< 21 |||
    immediate.setWidth 32 <<< 5 ||| reg destination

/-- The fields of a wide move. -/
lemma fields_moveWideWord (keep : Bool) (half : BitVec 2) (immediate : BitVec 16)
    (destination : Register) :
    let word := moveWideWord keep half immediate destination
    word.extractLsb' 23 9 = (if keep then 0b111100101#9 else 0b110100101#9) ∧
      word.extractLsb' 0 5 = registerBits destination ∧ word.extractLsb' 21 2 = half ∧
      word.extractLsb' 5 16 = immediate := by
  cases keep <;> refine ⟨?_, ?_, ?_, ?_⟩ <;> apply BitVec.eq_of_getLsbD_eq <;> intro i hi <;>
    simp only [moveWideWord, BitVec.getLsbD_extractLsb', BitVec.getLsbD_or,
      BitVec.getLsbD_shiftLeft, BitVec.getLsbD_setWidth, getLsbD_reg] <;>
    interval_cases i <;> simp [testBit_register, registerBits]

/-- Decoding an encoded wide move. -/
lemma decodeMove_moveWideWord (keep : Bool) (half : BitVec 2) (immediate : BitVec 16)
    (destination : Register) :
    decodeMove (moveWideWord keep half immediate destination) =
      some ⟨keep, registerBits destination, half, immediate⟩ := by
  obtain ⟨hopcode, hdestination, hhalf, himmediate⟩ :=
    fields_moveWideWord keep half immediate destination
  rw [decodeMove, hopcode, hdestination, hhalf, himmediate]
  cases keep <;> rfl

/-- Sixteen bits of a constant. -/
def halfOf (immediate : Word) (half : Nat) : BitVec 16 := immediate.extractLsb' (16 * half) 16

/-- The instruction that inserts a half, which is left out where the half is zero. -/
def insertWords (destination : Register) (immediate : Word) (half : Nat) : List (BitVec 32) :=
  if halfOf immediate half = 0 then []
  else [moveWideWord true (BitVec.ofNat 2 half) (halfOf immediate half) destination]

/-- The instructions that make a constant up. -/
def moveWords (destination : Register) (immediate : Word) : List (BitVec 32) :=
  moveWideWord false 0 (halfOf immediate 0) destination ::
    [1, 2, 3].flatMap (insertWords destination immediate)

/-- The halfword that the source masks out. -/
lemma half_eq (immediate : Word) (half : Nat) :
    ((immediate >>> (half * 16)) &&& 0xFFFF).setWidth 32 =
      (halfOf immediate half).setWidth 32 := by
  apply BitVec.eq_of_getLsbD_eq
  intro i hi
  have hmask : (0xFFFF : Word).getLsbD i = decide (i < 16) := by
    interval_cases i <;> rfl
  simp only [halfOf, BitVec.getLsbD_setWidth, BitVec.getLsbD_and, BitVec.getLsbD_ushiftRight,
    BitVec.getLsbD_extractLsb', hmask]
  rw [mul_comm, Bool.and_comm (immediate.getLsbD _)]

/-- A halfword is zero when it is zero as a word. -/
lemma setWidth_eq_zero_iff (half : BitVec 16) : half.setWidth 32 = 0 ↔ half = 0 := by
  constructor
  · intro h
    have hback := congrArg (BitVec.setWidth 16) h
    simpa using hback
  · rintro rfl
    rfl

/-- What moving an immediate emits. -/
lemma run_moveImmediate (destination : Register) (immediate : Word) (code : CodeBytes) :
    (moveImmediate destination immediate).run code =
      pure ((), code ++ (moveWords destination immediate).flatMap (leBytes 4)) := by
  by_cases h1 : halfOf immediate 1 = 0 <;> by_cases h2 : halfOf immediate 2 = 0 <;>
    by_cases h3 : halfOf immediate 3 = 0 <;>
    simp only [moveImmediate, half_eq, setWidth_eq_zero_iff, List.foldlM_cons, List.foldlM_nil,
      Bool.false_eq_true, and_false, and_true, if_false, if_true, StateT.run_bind, emitU32,
      run_emit_end, StateT.run_pure, pure_bind, h1, h2, h3, moveWords, insertWords,
      List.flatMap_cons, List.flatMap_nil, List.nil_append, List.append_nil, List.append_assoc,
      List.cons_append, reduceCtorEq] <;>
    rfl

/-- The low halves of a constant. -/
def lowHalves (immediate : Word) (count : Nat) : Word :=
  (immediate.extractLsb' 0 (16 * count)).setWidth 64

/-- Inserting a half completes one more half. -/
lemma insert_lowHalves (immediate : Word) {half : Nat} (h : half < 4) (destination : BitVec 5) :
    MoveWide.apply ⟨true, destination, BitVec.ofNat 2 half, halfOf immediate half⟩
      (lowHalves immediate half) = lowHalves immediate (half + 1) := by
  have hplace : 16 * (BitVec.ofNat 2 half).toNat = 16 * half := by
    rw [BitVec.toNat_ofNat, Nat.mod_eq_of_lt h]
  have hmask : ∀ i, (0xFFFF#64).getLsbD i = decide (i < 16) := by
    intro i
    by_cases hi : i < 64
    · interval_cases i <;> rfl
    · rw [BitVec.getLsbD_of_ge _ _ (by omega), decide_eq_false (by omega)]
  apply BitVec.eq_of_getLsbD_eq
  intro i hi
  simp only [MoveWide.apply, hplace, if_true, lowHalves, halfOf, BitVec.getLsbD_or,
    BitVec.getLsbD_and, BitVec.getLsbD_not, BitVec.getLsbD_shiftLeft, BitVec.getLsbD_setWidth,
    BitVec.getLsbD_extractLsb', hmask]
  by_cases hlow : i < 16 * half
  · have hnext : i < 16 * (half + 1) := by omega
    simp [hi, hlow, hnext]
  · by_cases hhigh : i < 16 * (half + 1)
    · have hfield : i - 16 * half < 16 := by omega
      have hindex : 16 * half + (i - 16 * half) = i := by omega
      simp [hi, hlow, hhigh, hfield, hindex]
      omega
    · have hfield : ¬ i - 16 * half < 16 := by omega
      simp [hi, hlow, hhigh, hfield]

/-- A half that is zero is complete without being inserted. -/
lemma lowHalves_of_zero {immediate : Word} {half : Nat} (h : halfOf immediate half = 0) :
    lowHalves immediate half = lowHalves immediate (half + 1) := by
  apply BitVec.eq_of_getLsbD_eq
  intro i hi
  have hbit : 16 * half ≤ i → i < 16 * (half + 1) → immediate.getLsbD i = false := by
    intro hlow hhigh
    have hfield := congrArg (·.getLsbD (i - 16 * half)) h
    have hinside : i - 16 * half < 16 := by omega
    have hindex : 16 * half + (i - 16 * half) = i := by omega
    simpa [halfOf, hinside, hindex] using hfield
  simp only [lowHalves, BitVec.getLsbD_setWidth, BitVec.getLsbD_extractLsb', hi, decide_true,
    Bool.true_and, Nat.zero_add]
  by_cases hlow : i < 16 * half
  · have hnext : i < 16 * (half + 1) := by omega
    simp [hlow, hnext]
  · by_cases hhigh : i < 16 * (half + 1)
    · simp [hlow, hbit (by omega) hhigh]
    · simp [hlow, hhigh]

/-- One wide move sets its halfword. -/
lemma runMoves_moveWideWord (keep : Bool) (half : BitVec 2) (immediate : BitVec 16)
    (destination : Register) (words : List (BitVec 32)) (value : BitVec 64) :
    runMoves (registerBits destination) (moveWideWord keep half immediate destination :: words)
        value =
      runMoves (registerBits destination) words
        (MoveWide.apply ⟨keep, registerBits destination, half, immediate⟩ value) := by
  rw [runMoves, decodeMove_moveWideWord, Option.bind_some, if_pos rfl]

/-- The moves behind the first set the other halfwords. -/
lemma runMoves_insertWords (destination : Register) (immediate : Word) {half : Nat} (h : half < 4)
    (words : List (BitVec 32)) :
    runMoves (registerBits destination) (insertWords destination immediate half ++ words)
        (lowHalves immediate half) =
      runMoves (registerBits destination) words (lowHalves immediate (half + 1)) := by
  unfold insertWords
  split_ifs with hzero
  · rw [List.nil_append, lowHalves_of_zero hzero]
  · rw [List.singleton_append, runMoves_moveWideWord, insert_lowHalves immediate h]

/-- The moves leave the constant behind, whatever the register held. -/
lemma runMoves_moveWords (destination : Register) (immediate : Word) (old : BitVec 64) :
    runMoves (registerBits destination) (moveWords destination immediate) old =
      some immediate := by
  have hfirst : MoveWide.apply ⟨false, registerBits destination, 0, halfOf immediate 0⟩ old =
      lowHalves immediate 1 := by
    simp [MoveWide.apply, lowHalves, halfOf]
  have hlast : lowHalves immediate 4 = immediate := by
    simp [lowHalves]
  simp only [moveWords, List.flatMap_cons, List.flatMap_nil]
  rw [runMoves_moveWideWord, hfirst, runMoves_insertWords _ _ (by omega),
    runMoves_insertWords _ _ (by omega), runMoves_insertWords _ _ (by omega), runMoves, hlast]

end AArch64

/-! ## The literal pool on RISC-V -/

namespace RiscV

open UniJit.Lib.RiscV (Register)
open UniJit.Lib.PcRelative.RiscV (decode pairAddress)
open Assembler

/-- A constant that a pair of instructions is to load. -/
structure LiteralUse where
  instructionOffset : Nat
  destination : Register
  value : Word

/-- Encodes an instruction with an upper immediate. -/
def encodeU (immediate : BitVec 32) (destination : Register) (opcode : BitVec 32) : BitVec 32 :=
  (immediate &&& 0xFFFFF) <<< 12 ||| reg destination <<< 7 ||| opcode

/-- Append the slot of a use and patch its pair. -/
def finalizeLiteral (literal : LiteralUse) : Emit (Except Status Unit) := do
  let literalOffset ← size
  if literal.instructionOffset + (2 ^ 31 - 1) < literalOffset then
    pure (.error
      ⟨.resourceExhausted, "RISC-V literal pool exceeds PC-relative addressing", 0⟩)
  else do
    let delta : Int := (literalOffset : Int) - literal.instructionOffset
    let high := (delta + 0x800) / 2 ^ 12
    let low := delta - high * 2 ^ 12
    patchU32 literal.instructionOffset (encodeU (BitVec.ofInt 32 high) literal.destination 0x17)
    patchU32 (literal.instructionOffset + 4)
      (encodeI (BitVec.ofInt 32 low) literal.destination 3 literal.destination 0x03)
    emit (leBytes 8 literal.value)
    pure (.ok ())

/-- Aligns the code and places the literals. -/
def finalizeLiterals (literals : List LiteralUse) : Emit (Except Status Unit) := do
  if (← size) % 8 ≠ 0 then emitI 0 kZero 0 kZero 0x13
  patchAll (literals.map finalizeLiteral)

/-! ### The assembler before it finalizes -/

/-- The code so far and the literals it uses. -/
structure LiteralAssembler where
  code : CodeBytes := []
  literals : List LiteralUse := []

namespace LiteralAssembler

/-- Appends an instruction word. -/
def emitU32 (a : LiteralAssembler) (instruction : BitVec 32) : LiteralAssembler :=
  { a with code := a.code ++ leBytes 4 instruction }

/-- Exchanges an instruction word that was emitted. -/
def patchU32 (a : LiteralAssembler) (offset : Nat) (instruction : BitVec 32) : LiteralAssembler :=
  { a with code := patchBytes (leBytes 4 instruction) offset a.code }

/-- Note a use and leave room for its pair. -/
def moveImmediate (a : LiteralAssembler) (destination : Register) (immediate : Word) :
    LiteralAssembler :=
  { code := a.code ++ leBytes 4 (0 : BitVec 32) ++ leBytes 4 (0 : BitVec 32)
    literals := a.literals ++ [⟨a.code.length, destination, immediate⟩] }

/-- Where the pool starts: the code is filled up to whole words. -/
def poolStart (a : LiteralAssembler) : Nat := (a.code.length + 7) / 8 * 8

end LiteralAssembler

/-- The states of the assembler before it finalizes. It appends instructions, patches branches in
the code it has, and moves constants to registers other than the zero register. -/
inductive Assembled : LiteralAssembler → Prop
  | start : Assembled {}
  | emitU32 {a : LiteralAssembler} (instruction : BitVec 32) (h : Assembled a) :
      Assembled (a.emitU32 instruction)
  | patchU32 {a : LiteralAssembler} {offset : Nat} (instruction : BitVec 32)
      (hfits : offset + 4 ≤ a.code.length) (h : Assembled a) :
      Assembled (a.patchU32 offset instruction)
  | moveImmediate {a : LiteralAssembler} {destination : Register} (immediate : Word)
      (hdestination : destination ≠ kZero) (h : Assembled a) :
      Assembled (a.moveImmediate destination immediate)

/-- The pairs stand in the code, one behind the other. -/
structure Reserved (room : Nat) (literals : List LiteralUse) : Prop where
  fits : ∀ literal ∈ literals, literal.instructionOffset + 8 ≤ room
  disjoint : literals.Pairwise fun first second =>
    first.instructionOffset + 8 ≤ second.instructionOffset
  destination : ∀ literal ∈ literals, literal.destination ≠ kZero

/-- Instructions reserved in less code are reserved in more. -/
lemma Reserved.mono {room more : Nat} {literals : List LiteralUse} (h : Reserved room literals)
    (hmore : room ≤ more) : Reserved more literals where
  fits := fun literal hmem => (h.fits literal hmem).trans hmore
  disjoint := h.disjoint
  destination := h.destination

/-- Assembled code has reserved the instructions of its literals. -/
lemma Assembled.reserved {a : LiteralAssembler} (h : Assembled a) :
    a.code.length % 4 = 0 ∧ Reserved a.code.length a.literals := by
  induction h with
  | start => exact ⟨rfl, by simp, by simp, by simp⟩
  | emitU32 instruction _ ih =>
      simp only [LiteralAssembler.emitU32, List.length_append, length_leBytes]
      exact ⟨by omega, ih.2.mono (by omega)⟩
  | patchU32 instruction hfits _ ih =>
      simp only [LiteralAssembler.patchU32]
      rw [length_patchBytes (by rwa [length_leBytes])]
      exact ih
  | @moveImmediate a destination immediate hdestination _ ih =>
      obtain ⟨haligned, hreserved⟩ := ih
      simp only [LiteralAssembler.moveImmediate, List.length_append, length_leBytes]
      refine ⟨by omega, ?_, ?_, ?_⟩
      · intro literal hmem
        rcases List.mem_append.mp hmem with hold | hnew
        · exact (hreserved.fits literal hold).trans (by omega)
        · cases List.mem_singleton.mp hnew
          exact Nat.le_of_eq (Nat.add_assoc a.code.length 4 4).symm
      · refine List.pairwise_append.mpr ⟨hreserved.disjoint, List.pairwise_singleton _ _, ?_⟩
        intro first hfirst second hsecond
        cases List.mem_singleton.mp hsecond
        exact hreserved.fits first hfirst
      · intro literal hmem
        rcases List.mem_append.mp hmem with hold | hnew
        · exact hreserved.destination literal hold
        · cases List.mem_singleton.mp hnew
          exact hdestination

/-! ### The address of a pair -/

section fields

variable (bits : BitVec 32) (destination : Register)

/-- The fields of an instruction with an upper immediate. -/
lemma fields_encodeU :
    let word := encodeU bits destination 0x17
    word.extractLsb' 0 7 = 0b0010111#7 ∧ word.extractLsb' 7 5 = registerBits destination ∧
      word.extractLsb' 12 20 = bits.extractLsb' 0 20 := by
  refine ⟨?_, ?_, ?_⟩ <;> apply BitVec.eq_of_getLsbD_eq <;> intro i hi <;>
    simp only [encodeU, BitVec.getLsbD_extractLsb', BitVec.getLsbD_or, BitVec.getLsbD_shiftLeft,
      BitVec.getLsbD_and, getLsbD_reg] <;>
    interval_cases i <;> simp [testBit_register, registerBits]

/-- The fields of a load of a doubleword. -/
lemma fields_encodeI :
    let word := encodeI bits destination 3 destination 0x03
    word.extractLsb' 0 7 = 0b0000011#7 ∧ word.extractLsb' 12 3 = 0b011#3 ∧
      word.extractLsb' 7 5 = registerBits destination ∧
      word.extractLsb' 15 5 = registerBits destination ∧
      word.extractLsb' 20 12 = bits.extractLsb' 0 12 := by
  refine ⟨?_, ?_, ?_, ?_, ?_⟩ <;> apply BitVec.eq_of_getLsbD_eq <;> intro i hi <;>
    simp only [encodeI, BitVec.getLsbD_extractLsb', BitVec.getLsbD_or, BitVec.getLsbD_shiftLeft,
      BitVec.getLsbD_and, getLsbD_reg] <;>
    interval_cases i <;> simp [testBit_register, registerBits]

end fields

/-- Decoding an encoded upper immediate. -/
lemma decode_encodeU (high : Int) (destination : Register) :
    decode (encodeU (BitVec.ofInt 32 high) destination 0x17) =
      some (.addUpper (registerBits destination) (BitVec.ofInt 20 high)) := by
  obtain ⟨hopcode, hdestination, hfield⟩ := fields_encodeU (BitVec.ofInt 32 high) destination
  rw [decode, hopcode, if_neg (by decide), if_neg (by decide), if_pos rfl, hdestination, hfield,
    PcRelative.extractLsb'_ofInt (by omega), pow_zero, Int.ediv_one]

/-- Decoding an encoded load. -/
lemma decode_encodeI (low : Int) (destination : Register) :
    decode (encodeI (BitVec.ofInt 32 low) destination 3 destination 0x03) =
      some (.loadDouble (registerBits destination) (registerBits destination)
        (BitVec.ofInt 12 low)) := by
  obtain ⟨hopcode, hfunction, hdestination, hbase, hfield⟩ :=
    fields_encodeI (BitVec.ofInt 32 low) destination
  rw [decode, hopcode, if_neg (by decide), if_neg (by decide), if_neg (by decide),
    if_pos ⟨rfl, hfunction⟩, hdestination, hbase, hfield, PcRelative.extractLsb'_ofInt (by omega),
    pow_zero, Int.ediv_one]

/-- A register other than 0 has a field other than 0. -/
lemma registerBits_ne_zero {destination : Register} (h : destination ≠ kZero) :
    registerBits destination ≠ 0 := by
  intro hzero
  apply h
  have hvalue := congrArg BitVec.toNat hzero
  rw [registerBits, BitVec.toNat_ofNat, Nat.mod_eq_of_lt destination.isLt] at hvalue
  exact Fin.ext hvalue

/-- The pair of a use at a distance: the high part of the distance is rounded, and where that
carries into its sign the pair leads `2 ^ 32` bytes too low. -/
lemma pairAddress_eq {delta : Int} (hlow : 0 ≤ delta) (hhigh : delta < 2 ^ 31)
    {destination : Register} (h : destination ≠ kZero) (pc : BitVec 64) :
    pairAddress pc
        (encodeU (BitVec.ofInt 32 ((delta + 0x800) / 2 ^ 12)) destination 0x17)
        (encodeI (BitVec.ofInt 32 (delta - (delta + 0x800) / 2 ^ 12 * 2 ^ 12)) destination 3
          destination 0x03) =
      some (pc + BitVec.ofInt 64 (if delta < 2 ^ 31 - 2048 then delta else delta - 2 ^ 32)) := by
  set high := (delta + 0x800) / 2 ^ 12 with hhigh'
  set low := delta - high * 2 ^ 12 with hlow'
  have hupper : (BitVec.ofInt 20 high ++ 0#12).signExtend 64 =
      BitVec.ofInt 64 (2 ^ 12 * if delta < 2 ^ 31 - 2048 then high else high - 2 ^ 20) := by
    rw [BitVec.signExtend, BitVec.toInt_append_zero, BitVec.toInt_ofInt]
    congr 2
    split_ifs with hsmall
    · apply Int.bmod_eq_of_le <;> omega
    · rw [Int.bmod_eq_iff (by norm_num)]
      omega
  have hlower : (BitVec.ofInt 12 low).signExtend 64 = BitVec.ofInt 64 low := by
    rw [BitVec.signExtend, BitVec.toInt_ofInt]
    congr 1
    apply Int.bmod_eq_of_le <;> omega
  rw [pairAddress, decode_encodeU, decode_encodeI]
  simp only [registerBits_ne_zero h, ne_eq, not_false_eq_true, and_self, if_true, hupper, hlower]
  rw [BitVec.add_assoc, ← BitVec.ofInt_add]
  congr 3
  split_ifs <;> omega

/-! ### One use -/

/-- How far behind a use a slot lies. -/
def distance (literal : LiteralUse) (slot : Nat) : Int := (slot : Int) - literal.instructionOffset

/-- The pair that a use is patched with. -/
def upperWord (literal : LiteralUse) (slot : Nat) : BitVec 32 :=
  encodeU (BitVec.ofInt 32 ((distance literal slot + 0x800) / 2 ^ 12)) literal.destination 0x17

/-- The load that reads a literal. -/
def lowerWord (literal : LiteralUse) (slot : Nat) : BitVec 32 :=
  encodeI (BitVec.ofInt 32 (distance literal slot -
    (distance literal slot + 0x800) / 2 ^ 12 * 2 ^ 12)) literal.destination 3
    literal.destination 0x03

/-- The pair of a use and its slot stand in the code. -/
structure Placed (code : CodeBytes) (literal : LiteralUse) (slot : Nat) : Prop where
  reach : slot ≤ literal.instructionOffset + (2 ^ 31 - 1)
  upper : wordAt code literal.instructionOffset = upperWord literal slot
  lower : wordAt code (literal.instructionOffset + 4) = lowerWord literal slot
  value : slice code slot 8 = leBytes 8 literal.value

/-- Code that keeps a pair and its slot keeps the use placed. -/
lemma Placed.of_slices {code code' : CodeBytes} {literal : LiteralUse} {slot : Nat}
    (h : Placed code literal slot)
    (hpair : slice code' literal.instructionOffset 4 = slice code literal.instructionOffset 4)
    (hnext : slice code' (literal.instructionOffset + 4) 4 =
      slice code (literal.instructionOffset + 4) 4)
    (hslot : slice code' slot 8 = slice code slot 8) : Placed code' literal slot where
  reach := h.reach
  upper := by rw [wordAt, hpair, ← wordAt, h.upper]
  lower := by rw [wordAt, hnext, ← wordAt, h.lower]
  value := by rw [hslot, h.value]

/-- What placing one literal does. -/
lemma run_finalizeLiteral (literal : LiteralUse) (code : CodeBytes) :
    (finalizeLiteral literal).run code =
      if literal.instructionOffset + (2 ^ 31 - 1) < code.length then
        (.error ⟨.resourceExhausted, "RISC-V literal pool exceeds PC-relative addressing", 0⟩,
          code)
      else
        (.ok (), patchBytes (leBytes 4 (lowerWord literal code.length))
          (literal.instructionOffset + 4)
          (patchBytes (leBytes 4 (upperWord literal code.length)) literal.instructionOffset
            code) ++ leBytes 8 literal.value) := by
  have hsize : size.run code = pure (code.length, code) := rfl
  rw [finalizeLiteral, StateT.run_bind, hsize, pure_bind]
  split_ifs with hfar
  · rfl
  · rfl

/-- Finalizing a use puts its slot at the end and touches nothing but its pair. -/
lemma placed_finalizeLiteral {literal : LiteralUse} {code code' : CodeBytes}
    (hfits : literal.instructionOffset + 8 ≤ code.length)
    (hrun : (finalizeLiteral literal).run code = (.ok (), code')) :
    Placed code' literal code.length ∧ code'.length = code.length + 8 ∧
      ∀ start count, start + count ≤ code.length →
        start + count ≤ literal.instructionOffset ∨ literal.instructionOffset + 8 ≤ start →
          slice code' start count = slice code start count := by
  rw [run_finalizeLiteral] at hrun
  split_ifs at hrun with hfar
  · cases congrArg Prod.fst hrun
  have hcode := congrArg Prod.snd hrun
  dsimp only at hcode
  generalize hupper : upperWord literal code.length = upper at hcode
  generalize hlower : lowerWord literal code.length = lower at hcode
  set first := patchBytes (leBytes 4 upper) literal.instructionOffset code with hfirst
  set second := patchBytes (leBytes 4 lower) (literal.instructionOffset + 4) first with hsecond
  have hlength1 : first.length = code.length :=
    length_patchBytes (by rw [length_leBytes]; omega)
  have hlength2 : second.length = code.length :=
    (length_patchBytes (by rw [length_leBytes]; omega)).trans hlength1
  have hframe2 : ∀ start count, start + count ≤ literal.instructionOffset + 4 ∨
      literal.instructionOffset + 8 ≤ start → slice second start count = slice first start count :=
    fun start count hdisjoint => slice_patchBytes_of_disjoint
      (by rw [length_leBytes]; omega) (by rw [length_leBytes]; omega)
  subst hcode
  refine ⟨⟨by omega, ?_, ?_, ?_⟩, ?_, ?_⟩
  · rw [wordAt, slice_append _ (by omega), hframe2 _ _ (.inl le_rfl), hupper]
    exact wordAt_patchBytes (by omega)
  · rw [wordAt, slice_append _ (by omega), hlower]
    exact wordAt_patchBytes (by omega)
  · rw [slice, ← hlength2, List.drop_left]
    exact List.take_of_length_le (by rw [length_leBytes])
  · rw [List.length_append, length_leBytes, hlength2]
  · intro start count hinside hdisjoint
    rw [slice_append _ (by omega), hframe2 _ _ (by omega)]
    exact slice_patchBytes_of_disjoint (by rw [length_leBytes]; omega)
      (by rw [length_leBytes]; omega)

/-! ### All uses -/

/-- The uses get their slots one behind the other, and nothing but their pairs is touched. -/
lemma placed_patchAll {room : Nat} {literals : List LiteralUse} (h : Reserved room literals)
    {code code' : CodeBytes} (hroom : room ≤ code.length)
    (hrun : (patchAll (literals.map finalizeLiteral)).run code = (.ok (), code')) :
    (∀ i literal, literals[i]? = some literal → Placed code' literal (code.length + 8 * i)) ∧
      ∀ start count, start + count ≤ code.length →
        (∀ literal ∈ literals, start + count ≤ literal.instructionOffset ∨
          literal.instructionOffset + 8 ≤ start) →
        slice code' start count = slice code start count := by
  induction literals generalizing code with
  | nil =>
      have hcode : code = code' := congrArg Prod.snd hrun
      subst hcode
      exact ⟨by simp, fun _ _ _ _ => rfl⟩
  | cons literal literals ih =>
      have hfits := h.fits literal List.mem_cons_self
      obtain ⟨hbehind, hdisjoint⟩ := List.pairwise_cons.mp h.disjoint
      have hrest : Reserved room literals :=
        ⟨fun other hmem => h.fits other (List.mem_cons_of_mem _ hmem), hdisjoint,
          fun other hmem => h.destination other (List.mem_cons_of_mem _ hmem)⟩
      obtain ⟨next, hnext, htail⟩ : ∃ next, (finalizeLiteral literal).run code = (.ok (), next) ∧
          (patchAll (literals.map finalizeLiteral)).run next = (.ok (), code') := by
        rcases hhead : (finalizeLiteral literal).run code with ⟨status | done, next⟩
        · rw [List.map_cons, patchAll, StateT.run_bind, hhead] at hrun
          cases congrArg Prod.fst hrun
        · rw [List.map_cons, patchAll, StateT.run_bind, hhead] at hrun
          exact ⟨next, rfl, hrun⟩
      obtain ⟨hplaced, hlength, hframe⟩ := placed_finalizeLiteral (by omega) hnext
      obtain ⟨hplaces, hframes⟩ := ih hrest (by omega) htail
      constructor
      · intro i other hother
        rcases i with - | i
        · cases hother
          -- the later pairs and slots lie behind this pair and off this slot
          apply hplaced.of_slices
          · exact hframes _ _ (by omega) fun other hmem => .inl (by have := hbehind other hmem; omega)
          · exact hframes _ _ (by omega) fun other hmem => .inl (by have := hbehind other hmem; omega)
          · exact hframes _ _ (by omega) fun other hmem =>
              .inr ((hrest.fits other hmem).trans hroom)
        · have hslot := hplaces i other hother
          rw [hlength] at hslot
          have hindex : code.length + 8 * (i + 1) = code.length + 8 + 8 * i := by omega
          rwa [hindex]
      · intro start count hinside hoff
        rw [hframes start count (by omega) fun other hmem => hoff other (List.mem_cons_of_mem _ hmem),
          hframe start count hinside (hoff literal List.mem_cons_self)]

/-- What placing the literals does. -/
lemma run_finalizeLiterals (literals : List LiteralUse) (code : CodeBytes) :
    (finalizeLiterals literals).run code =
      (patchAll (literals.map finalizeLiteral)).run
        (if code.length % 8 = 0 then code
          else code ++ leBytes 4 (encodeI 0 kZero 0 kZero 0x13)) := by
  have hsize : size.run code = pure (code.length, code) := rfl
  rw [finalizeLiterals, StateT.run_bind, hsize, pure_bind]
  by_cases heven : code.length % 8 = 0
  · rw [if_neg (not_not.mpr heven), if_pos heven]
  · rw [if_pos heven, if_neg heven]
    rfl

/-- The pool starts at a whole word. -/
lemma placed_finalizeLiterals {a : LiteralAssembler} (h : Assembled a) {code' : CodeBytes}
    (hrun : (finalizeLiterals a.literals).run a.code = (.ok (), code')) :
    ∀ i literal, a.literals[i]? = some literal →
      Placed code' literal (a.poolStart + 8 * i) := by
  obtain ⟨haligned, hreserved⟩ := h.reserved
  by_cases heven : a.code.length % 8 = 0
  · have hstart : a.poolStart = a.code.length := by
      rw [LiteralAssembler.poolStart]
      omega
    rw [run_finalizeLiterals, if_pos heven] at hrun
    rw [hstart]
    exact (placed_patchAll hreserved le_rfl hrun).1
  · have hstart : a.poolStart =
        (a.code ++ leBytes 4 (encodeI 0 kZero 0 kZero 0x13)).length := by
      rw [LiteralAssembler.poolStart, List.length_append, length_leBytes]
      omega
    rw [run_finalizeLiterals, if_neg heven] at hrun
    rw [hstart]
    exact (placed_patchAll hreserved (by simp) hrun).1

/-! ### What a pair addresses -/

/-- Wherever the code is loaded, the pair of a use addresses a slot that holds its value. -/
def Addresses (code : CodeBytes) (literal : LiteralUse) (slot : Nat) : Prop :=
  slot % 8 = 0 ∧ slice code slot 8 = leBytes 8 literal.value ∧ ∀ base : BitVec 64,
    pairAddress (base + BitVec.ofNat 64 literal.instructionOffset)
        (wordAt code literal.instructionOffset) (wordAt code (literal.instructionOffset + 4)) =
      some (base + BitVec.ofNat 64 slot)

/-- Every use addresses its slot of the pool. -/
def LiteralsExact (a : LiteralAssembler) (code : CodeBytes) : Prop :=
  ∀ i literal, a.literals[i]? = some literal → Addresses code literal (a.poolStart + 8 * i)

/-- The distances whose high part does not carry into its sign. -/
def InReach (literal : LiteralUse) (slot : Nat) : Prop :=
  slot < literal.instructionOffset + (2 ^ 31 - 2048)

/-- Whether a literal is in reach can be computed. -/
instance (literal : LiteralUse) (slot : Nat) : Decidable (InReach literal slot) :=
  inferInstanceAs (Decidable (_ < _))

/-- A placed literal is addressed exactly when it is in reach. -/
lemma addresses_iff {code : CodeBytes} {literal : LiteralUse} {slot : Nat}
    (h : Placed code literal slot) (hdestination : literal.destination ≠ kZero)
    (hbehind : literal.instructionOffset ≤ slot) (haligned : slot % 8 = 0) :
    Addresses code literal slot ↔ InReach literal slot := by
  have hreach := h.reach
  have hdistance : BitVec.ofInt 64 (distance literal slot) +
      BitVec.ofNat 64 literal.instructionOffset = BitVec.ofNat 64 slot := by
    rw [← BitVec.ofInt_natCast, ← BitVec.ofInt_natCast, ← BitVec.ofInt_add, distance]
    congr 1
    omega
  have hpair : ∀ base : BitVec 64,
      pairAddress (base + BitVec.ofNat 64 literal.instructionOffset)
        (wordAt code literal.instructionOffset) (wordAt code (literal.instructionOffset + 4)) =
      some (base + BitVec.ofNat 64 literal.instructionOffset + BitVec.ofInt 64
        (if distance literal slot < 2 ^ 31 - 2048 then distance literal slot
          else distance literal slot - 2 ^ 32)) := by
    intro base
    rw [h.upper, h.lower, upperWord, lowerWord]
    exact pairAddress_eq (by rw [distance]; omega) (by rw [distance]; omega) hdestination _
  constructor
  · rintro ⟨-, -, haddress⟩
    by_contra hfar
    have hlarge : ¬ distance literal slot < 2 ^ 31 - 2048 := by
      rw [InReach] at hfar
      rw [distance]
      omega
    have hzero := (hpair 0).symm.trans (haddress 0)
    rw [if_neg hlarge, sub_eq_add_neg, BitVec.ofInt_add, ← hdistance] at hzero
    have hlost : BitVec.ofInt 64 (-2 ^ 32) = 0 := by
      have hsum := Option.some.inj hzero
      rwa [zero_add, zero_add, ← add_assoc, add_comm (BitVec.ofNat 64 _),
        add_eq_left] at hsum
    exact absurd hlost (by decide)
  · intro hnear
    refine ⟨haligned, h.value, fun base => ?_⟩
    have hsmall : distance literal slot < 2 ^ 31 - 2048 := by
      rw [InReach] at hnear
      rw [distance]
      omega
    rw [hpair, if_pos hsmall, add_assoc, add_comm (BitVec.ofNat 64 _), hdistance]

/-- Every literal is addressed exactly when every one is in reach. -/
lemma literalsExact_iff {a : LiteralAssembler} (h : Assembled a) {code : CodeBytes}
    (hrun : (finalizeLiterals a.literals).run a.code = (.ok (), code)) :
    LiteralsExact a code ↔
      ∀ i literal, a.literals[i]? = some literal → InReach literal (a.poolStart + 8 * i) := by
  have hstart : a.code.length ≤ a.poolStart ∧ a.poolStart % 8 = 0 := by
    rw [LiteralAssembler.poolStart]
    omega
  apply forall_congr'
  intro i
  apply forall_congr'
  intro literal
  apply imp_congr_right
  intro hliteral
  have hmem := List.mem_of_getElem? hliteral
  have hfits := h.reserved.2.fits literal hmem
  exact addresses_iff (placed_finalizeLiterals h hrun i literal hliteral)
    (h.reserved.2.destination literal hmem) (by omega) (by omega)

end RiscV

/-! ## All encoders -/

/-- Patched branches lead exactly to their targets, constants are made up exactly, and the uses of
an assembled function address their slots once its literals are finalized. -/
structure EncodersExact (a : RiscV.LiteralAssembler) (code : CodeBytes) : Prop where
  riscVConditional : ∀ offset target rhs lhs comparison,
    Patches (RiscV.Assembler.patchConditionalBranch offset target rhs lhs
        (comparison.code.setWidth 32)) offset fun word =>
      PcRelative.RiscV.decode word = some (.branch comparison (RiscV.registerBits lhs)
        (RiscV.registerBits rhs) ((target : Int) - offset))
  riscVBranch : ∀ offset target source conditional,
    Patches (RiscV.patchBranch offset target conditional source) offset fun word =>
      PcRelative.RiscV.decode word = some (if conditional then
          .branch .notEqual (RiscV.registerBits source) (RiscV.registerBits RiscV.kZero)
            ((target : Int) - offset)
        else .jump (RiscV.registerBits RiscV.kZero) ((target : Int) - offset))
  riscVZero : ∀ offset target source,
    Patches (RiscV.patchZeroBranch offset target source) offset fun word =>
      PcRelative.RiscV.decode word = some (.branch .equal (RiscV.registerBits source)
        (RiscV.registerBits RiscV.kZero) ((target : Int) - offset))
  aarch64Condition : ∀ offset target condition,
    Patches (AArch64.Assembler.patchConditionBranch offset target condition) offset fun word =>
      PcRelative.AArch64.decodeBranch word =
        some (.onCondition (condition.setWidth 4), (target : Int) - offset)
  aarch64Zero : ∀ offset target source,
    Patches (AArch64.Assembler.patchZeroBranch offset target source) offset fun word =>
      PcRelative.AArch64.decodeBranch word =
        some (.onZero (AArch64.registerBits source), (target : Int) - offset)
  aarch64Branch : ∀ offset target source conditional,
    Patches (AArch64.patchBranch offset target conditional source) offset fun word =>
      PcRelative.AArch64.decodeBranch word =
        some (if conditional then .onNonzero (AArch64.registerBits source) else .always,
          (target : Int) - offset)
  x86Branch : ∀ branch start target before after,
    slice before start (X86.opcodeOf branch).length = X86.opcodeOf branch →
    start + (X86.opcodeOf branch).length + 4 ≤ before.length →
    (X86.Assembler.patchBranch (start + (X86.opcodeOf branch).length) target).run before =
      (.ok (), after) →
    PcRelative.X86.decodeBranch (after.drop start) =
      some (branch, (X86.opcodeOf branch).length + 4, (target : Int) - start)
  moves : ∀ destination immediate, ∃ words : List (BitVec 32),
    (∀ before, (AArch64.Assembler.moveImmediate destination immediate).run before =
      ((), before ++ words.flatMap (leBytes 4))) ∧
    ∀ old, PcRelative.AArch64.runMoves (AArch64.registerBits destination) words old =
      some immediate
  literals : RiscV.LiteralsExact a code

/-- A function that starts with a constant and goes on for some instructions. -/
def constantFirst (count : Nat) : RiscV.LiteralAssembler :=
  (·.emitU32 0x13)^[count] (RiscV.LiteralAssembler.moveImmediate {} 5 42)

/-- The code that loads a constant and goes on has one literal. -/
lemma constantFirst_spec (count : Nat) :
    RiscV.Assembled (constantFirst count) ∧
      (constantFirst count).code.length = 8 + 4 * count ∧
      (constantFirst count).literals = [⟨0, 5, 42⟩] := by
  induction count with
  | zero => exact ⟨.moveImmediate 42 (by decide) .start, rfl, rfl⟩
  | succ count ih =>
      obtain ⟨hassembled, hlength, hliterals⟩ := ih
      rw [constantFirst, Function.iterate_succ_apply', ← constantFirst]
      refine ⟨.emitU32 _ hassembled, ?_, hliterals⟩
      rw [RiscV.LiteralAssembler.emitU32, List.length_append, hlength, length_leBytes]
      omega

/-- Placing its literal succeeds within the range the source checks. -/
lemma finalizeLiterals_constantFirst (count : Nat) (heven : count % 2 = 0)
    (hcount : 8 + 4 * count ≤ 2 ^ 31 - 1) :
    ∃ code, (RiscV.finalizeLiterals (constantFirst count).literals).run (constantFirst count).code =
      (.ok (), code) := by
  obtain ⟨-, hlength, hliterals⟩ := constantFirst_spec count
  have hnear : ¬ 0 + (2 ^ 31 - 1) < (constantFirst count).code.length := by omega
  rw [RiscV.run_finalizeLiterals, if_pos (by omega), hliterals, List.map_singleton,
    CodeBuffer.patchAll, StateT.run_bind, RiscV.run_finalizeLiteral, if_neg hnear]
  exact ⟨_, rfl⟩

/-- The encoders are exact if and only if no slot lies in the last 2048 bytes of the range that
the finalization admits. -/
theorem encodersExact_iff {a : RiscV.LiteralAssembler} (h : RiscV.Assembled a) {code : CodeBytes}
    (hrun : (RiscV.finalizeLiterals a.literals).run a.code = (.ok (), code)) :
    EncodersExact a code ↔ ∀ i literal, a.literals[i]? = some literal →
      RiscV.InReach literal (a.poolStart + 8 * i) := by
  rw [← RiscV.literalsExact_iff h hrun]
  constructor
  · exact EncodersExact.literals
  · intro hliterals
    exact
      { riscVConditional := RiscV.patches_patchConditionalBranch
        riscVBranch := RiscV.patches_patchBranch
        riscVZero := RiscV.patches_patchZeroBranch
        aarch64Condition := AArch64.patches_patchConditionBranch
        aarch64Zero := AArch64.patches_patchZeroBranch
        aarch64Branch := AArch64.patches_patchBranch
        x86Branch := fun branch _ _ _ _ => X86.decodeBranch_patchBranch branch
        moves := fun destination immediate =>
          ⟨AArch64.moveWords destination immediate,
            AArch64.run_moveImmediate destination immediate,
            AArch64.runMoves_moveWords destination immediate⟩
        literals := hliterals }

/-- Near its literal the code that loads a constant is exact. -/
theorem encodersExact_iff_constantFirst :
    ∃ code, (RiscV.finalizeLiterals (constantFirst 0).literals).run (constantFirst 0).code =
      (.ok (), code) ∧ EncodersExact (constantFirst 0) code := by
  obtain ⟨hassembled, hlength, hliterals⟩ := constantFirst_spec 0
  obtain ⟨code, hrun⟩ := finalizeLiterals_constantFirst 0 (by decide) (by omega)
  refine ⟨code, hrun, (encodersExact_iff hassembled hrun).mpr fun i literal hliteral => ?_⟩
  rw [hliterals] at hliteral
  rcases i with - | i
  · cases hliteral
    decide
  · cases hliteral

/-- A constant that is used nearly `2 ^ 31` bytes in front of the pool is lost. -/
theorem not_encodersExact_constantFirst :
    ¬ ∀ (a : RiscV.LiteralAssembler) (code : CodeBytes), RiscV.Assembled a →
      (RiscV.finalizeLiterals a.literals).run a.code = (.ok (), code) → EncodersExact a code := by
  intro hall
  obtain ⟨count, hcount⟩ : ∃ count : Nat, count = 2 ^ 29 - 514 := ⟨_, rfl⟩
  obtain ⟨hassembled, hlength, hliterals⟩ := constantFirst_spec count
  obtain ⟨code, hrun⟩ := finalizeLiterals_constantFirst count (by omega) (by omega)
  have hexact := (hall _ code hassembled hrun).literals
  rw [RiscV.literalsExact_iff hassembled hrun] at hexact
  have hreach := hexact 0 ⟨0, 5, 42⟩ (by rw [hliterals]; rfl)
  rw [RiscV.InReach, RiscV.LiteralAssembler.poolStart, hlength] at hreach
  dsimp only at hreach
  omega

end UniJit.Jit
