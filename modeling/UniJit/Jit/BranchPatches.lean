import UniJit.Jit.AArch64IntegerLowering
import UniJit.Jit.RiscVIntegerLowering
import UniJit.Jit.X86ProgramAssembler
import UniJit.Lib.PcRelative

/-!
# Patched branches

An assembler patches a branch once its target is known, if the displacement fits. Whatever a patch
that succeeds leaves behind is, to the instruction set, a branch to exactly that target, and the
rest of the buffer is as it was (`Patches`).

The lowering of integer operations needs some of the patches only. The other forms are defined
here, under the names that they have in the source.
-/

namespace UniJit.Jit

open UniJit.Lib UniJit.Jit.CodeBuffer

/-- A patch, where it succeeds, puts an instruction with `P` at its offset and changes nothing
else. -/
def Patches (patch : Emit (Except Status Unit)) (offset : Nat) (P : BitVec 32 → Prop) : Prop :=
  ∀ code code' : CodeBytes, offset + 4 ≤ code.length → patch.run code = (.ok (), code') →
    P (wordAt code' offset) ∧ code'.length = code.length ∧
      ∀ start count, start + count ≤ offset ∨ offset + 4 ≤ start →
        slice code' start count = slice code start count

/-- A patch that writes one word. -/
lemma patches_patchU32 {offset : Nat} {word : BitVec 32} {P : BitVec 32 → Prop} (h : P word) :
    Patches (do patchU32 offset word; pure (.ok ())) offset P := by
  rintro code code' hfits hrun
  have hcode : patchBytes (leBytes 4 word) offset code = code' := congrArg Prod.snd hrun
  have hlength : offset + (leBytes 4 word).length ≤ code.length := by rwa [length_leBytes]
  subst hcode
  refine ⟨?_, length_patchBytes hlength, fun start count hdisjoint => ?_⟩
  · rwa [wordAt_patchBytes hfits]
  · exact slice_patchBytes_of_disjoint hlength (by rwa [length_leBytes])

/-- A patch that fails promises nothing. -/
lemma patches_error {offset : Nat} {status : Status} {P : BitVec 32 → Prop} :
    Patches (pure (.error status)) offset P := by
  rintro code code' - hrun
  cases congrArg Prod.fst hrun

/-! ## RISC-V -/

namespace RiscV

open UniJit.Lib.RiscV (Register)
open UniJit.Lib.PcRelative.RiscV (Comparison comparisonOf branchField jumpField decode)
open Assembler

/-- Patch a branch, which compares a register with zero if it is conditional. -/
def patchBranch (offset target : Nat) (conditional : Bool) (source : Register) :
    Emit (Except Status Unit) :=
  if conditional then
    patchDelta "RISC-V conditional branch exceeds its encoding range" (-4096) 4094
      (fun bits => encodeB bits kZero source 1 0x63) offset target
  else Assembler.patchBranch offset target

/-- Sets the target of a branch on zero. -/
def patchZeroBranch (offset target : Nat) (source : Register) : Emit (Except Status Unit) :=
  let delta : Int := (target : Int) - offset
  if delta % 2 ≠ 0 then
    pure (.error
      ⟨.codeGenerationFailed, "RISC-V safepoint branch target is not halfword aligned", 0⟩)
  else if delta < -4096 ∨ 4094 < delta then
    pure (.error ⟨.resourceExhausted, "RISC-V safepoint branch exceeds its encoding range", 0⟩)
  else do
    patchU32 offset (encodeB (BitVec.ofInt 32 delta) kZero source 0 0x63)
    pure (.ok ())

/-! ### Fields -/

lemma testBit_register (r : Register) {i : Nat} (h : 5 ≤ i) : r.val.testBit i = false :=
  Nat.testBit_lt_two_pow (lt_of_lt_of_le r.isLt (Nat.pow_le_pow_right two_pos h))

/-- The bits of a register field. -/
lemma getLsbD_reg (r : Register) (i : Nat) : (reg r).getLsbD i = r.val.testBit i := by
  rw [reg, BitVec.getLsbD_ofNat]
  by_cases hi : i < 32
  · simp [hi]
  · simp [hi, testBit_register r (show 5 ≤ i by omega)]

/-- A register as it stands in an instruction. -/
def registerBits (r : Register) : BitVec 5 := BitVec.ofNat 5 r

section fields

variable (bits : BitVec 32) (rhs lhs destination : Register) (function : BitVec 3)

/-- The fields of an encoded branch. -/
lemma fields_encodeB :
    let word := encodeB bits rhs lhs (function.setWidth 32) 0x63
    word.extractLsb' 0 7 = 0b1100011#7 ∧ word.extractLsb' 12 3 = function ∧
      word.extractLsb' 15 5 = registerBits lhs ∧ word.extractLsb' 20 5 = registerBits rhs ∧
      branchField word = bits.extractLsb' 1 12 ++ 0#1 := by
  refine ⟨?_, ?_, ?_, ?_, ?_⟩ <;> apply BitVec.eq_of_getLsbD_eq <;> intro i hi <;>
    simp only [branchField, encodeB, BitVec.getLsbD_append, BitVec.getLsbD_extractLsb',
      BitVec.getLsbD_or, BitVec.getLsbD_shiftLeft, BitVec.getLsbD_and, BitVec.getLsbD_ushiftRight,
      getLsbD_reg, BitVec.getLsbD_setWidth] <;>
    interval_cases i <;> simp [testBit_register, registerBits]

/-- The fields of an encoded jump. -/
lemma fields_encodeJ :
    let word := encodeJ bits destination 0x6F
    word.extractLsb' 0 7 = 0b1101111#7 ∧ word.extractLsb' 7 5 = registerBits destination ∧
      jumpField word = bits.extractLsb' 1 20 ++ 0#1 := by
  refine ⟨?_, ?_, ?_⟩ <;> apply BitVec.eq_of_getLsbD_eq <;> intro i hi <;>
    simp only [jumpField, encodeJ, BitVec.getLsbD_append, BitVec.getLsbD_extractLsb',
      BitVec.getLsbD_or, BitVec.getLsbD_shiftLeft, BitVec.getLsbD_and, BitVec.getLsbD_ushiftRight,
      getLsbD_reg] <;>
    interval_cases i <;> simp [testBit_register, registerBits]

end fields

/-! ### Displacements -/

/-- Decoding an encoded branch within its range. -/
lemma decode_encodeB {delta : Int} (heven : delta % 2 = 0) (hlow : -4096 ≤ delta)
    (hhigh : delta ≤ 4094) (rhs lhs : Register) (comparison : Comparison) :
    decode (encodeB (BitVec.ofInt 32 delta) rhs lhs (comparison.code.setWidth 32) 0x63) =
      some (.branch comparison (registerBits lhs) (registerBits rhs) delta) := by
  obtain ⟨hopcode, hfunction, hlhs, hrhs, hfield⟩ :=
    fields_encodeB (BitVec.ofInt 32 delta) rhs lhs comparison.code
  have hcomparison : comparisonOf comparison.code = some comparison := by
    cases comparison <;> rfl
  have hdelta : ((BitVec.ofInt 32 delta).extractLsb' 1 12 ++ 0#1).toInt = delta := by
    rw [BitVec.toInt_append_zero, PcRelative.toInt_extractLsb'_ofInt (n := 11)] <;> omega
  rw [decode, if_pos hopcode, hfunction, hlhs, hrhs, hfield, hcomparison, hdelta]
  rfl

/-- Decoding an encoded jump within its range. -/
lemma decode_encodeJ {delta : Int} (heven : delta % 2 = 0) (hlow : -2 ^ 20 ≤ delta)
    (hhigh : delta ≤ 2 ^ 20 - 2) (destination : Register) :
    decode (encodeJ (BitVec.ofInt 32 delta) destination 0x6F) =
      some (.jump (registerBits destination) delta) := by
  obtain ⟨hopcode, hdestination, hfield⟩ := fields_encodeJ (BitVec.ofInt 32 delta) destination
  have hdelta : ((BitVec.ofInt 32 delta).extractLsb' 1 20 ++ 0#1).toInt = delta := by
    rw [BitVec.toInt_append_zero, PcRelative.toInt_extractLsb'_ofInt (n := 19)] <;> omega
  rw [decode, hopcode, if_neg (by decide), if_pos rfl, hdestination, hfield, hdelta]

/-- A patch that succeeds has written a word for the distance. -/
lemma patches_patchDelta {tooFar : String} {lower upper : Int} {encode : BitVec 32 → BitVec 32}
    {offset target : Nat} {P : BitVec 32 → Prop}
    (h : ((target : Int) - offset) % 2 = 0 → lower ≤ (target : Int) - offset →
      (target : Int) - offset ≤ upper → P (encode (BitVec.ofInt 32 ((target : Int) - offset)))) :
    Patches (patchDelta tooFar lower upper encode offset target) offset P := by
  unfold patchDelta
  dsimp only
  split_ifs with hodd hrange
  · exact patches_error
  · exact patches_error
  · exact patches_patchU32 (h (by omega) (by omega) (by omega))

section patches

variable (offset target : Nat) (rhs lhs source : Register)

/-- A patched comparison goes to its target. -/
lemma patches_patchConditionalBranch (comparison : Comparison) :
    Patches (patchConditionalBranch offset target rhs lhs (comparison.code.setWidth 32)) offset
      fun word => decode word =
        some (.branch comparison (registerBits lhs) (registerBits rhs)
          ((target : Int) - offset)) :=
  patches_patchDelta fun heven hlow hhigh => decode_encodeB heven hlow hhigh rhs lhs comparison

/-- A patched branch goes to its target. -/
lemma patches_patchBranch (conditional : Bool) :
    Patches (patchBranch offset target conditional source) offset fun word => decode word =
      some (if conditional then
          .branch .notEqual (registerBits source) (registerBits kZero) ((target : Int) - offset)
        else .jump (registerBits kZero) ((target : Int) - offset)) := by
  have hcode : Comparison.notEqual.code.setWidth 32 = (1 : BitVec 32) := rfl
  unfold patchBranch
  cases conditional with
  | true =>
      simp only [if_true]
      apply patches_patchDelta
      intro heven hlow hhigh
      rw [← hcode]
      exact decode_encodeB heven hlow hhigh kZero source .notEqual
  | false =>
      simp only [Bool.false_eq_true, if_false, Assembler.patchBranch]
      apply patches_patchDelta
      intro heven hlow hhigh
      exact decode_encodeJ heven hlow hhigh kZero

/-- A patched branch on zero goes to its target. -/
lemma patches_patchZeroBranch :
    Patches (patchZeroBranch offset target source) offset fun word => decode word =
      some (.branch .equal (registerBits source) (registerBits kZero)
        ((target : Int) - offset)) := by
  have hcode : Comparison.equal.code.setWidth 32 = (0 : BitVec 32) := rfl
  unfold patchZeroBranch
  dsimp only
  split_ifs with hodd hrange
  · exact patches_error
  · exact patches_error
  · apply patches_patchU32
    rw [← hcode]
    exact decode_encodeB (by omega) (by omega) (by omega) kZero source .equal

end patches

end RiscV

/-! ## AArch64 -/

namespace AArch64

open UniJit.Lib.AArch64 (Register)
open UniJit.Lib.PcRelative.AArch64 (decodeBranch)
open Assembler

/-- Patch a branch, which tests a register if it is conditional. -/
def patchBranch (offset target : Nat) (conditional : Bool) (source : Register) :
    Emit (Except Status Unit) :=
  if conditional then
    patchWords "AArch64 branch target is not instruction aligned"
      "AArch64 conditional branch exceeds its encoding range" 19
      (fun words => 0xB5000000#32 ||| (words &&& 0x7FFFF) <<< 5 ||| reg source) offset target
  else Assembler.patchBranch offset target

/-- A register as it stands in an instruction. -/
def registerBits (r : Register) : BitVec 5 := BitVec.ofNat 5 r

/-! ### Fields -/

lemma testBit_register (r : Register) {i : Nat} (h : 5 ≤ i) : r.val.testBit i = false :=
  Nat.testBit_lt_two_pow (lt_of_lt_of_le r.isLt (Nat.pow_le_pow_right two_pos h))

/-- The bits of a register field. -/
lemma getLsbD_reg (r : Register) (i : Nat) : (reg r).getLsbD i = r.val.testBit i := by
  rw [reg, BitVec.getLsbD_ofNat]
  by_cases hi : i < 32
  · simp [hi]
  · simp [hi, testBit_register r (show 5 ≤ i by omega)]

section fields

variable (words condition : BitVec 32) (source : Register)

/-- The fields of a branch. -/
lemma fields_branch :
    let word := 0x14000000#32 ||| (words &&& 0x03FFFFFF)
    word.extractLsb' 26 6 = 0b000101#6 ∧ word.extractLsb' 0 26 = words.extractLsb' 0 26 := by
  refine ⟨?_, ?_⟩ <;> apply BitVec.eq_of_getLsbD_eq <;> intro i hi <;>
    simp only [BitVec.getLsbD_extractLsb', BitVec.getLsbD_or, BitVec.getLsbD_and] <;>
    interval_cases i <;> simp

/-- The fields of a conditional branch. -/
lemma fields_conditionBranch :
    let word := 0x54000000#32 ||| (words &&& 0x7FFFF) <<< 5 ||| (condition &&& 0xF)
    word.extractLsb' 26 6 = 0b010101#6 ∧ word.extractLsb' 24 8 = 0b01010100#8 ∧
      word.getLsbD 4 = false ∧ word.extractLsb' 0 4 = condition.setWidth 4 ∧
      word.extractLsb' 5 19 = words.extractLsb' 0 19 := by
  refine ⟨?_, ?_, by simp, ?_, ?_⟩ <;> apply BitVec.eq_of_getLsbD_eq <;> intro i hi <;>
    simp only [BitVec.getLsbD_extractLsb', BitVec.getLsbD_or, BitVec.getLsbD_and,
      BitVec.getLsbD_shiftLeft, BitVec.getLsbD_setWidth] <;>
    interval_cases i <;> simp

/-- The branches on a register differ in one bit. -/
lemma fields_registerBranch (nonzero : Bool) :
    let word := (if nonzero then 0xB5000000#32 else 0xB4000000#32) |||
      (words &&& 0x7FFFF) <<< 5 ||| reg source
    word.extractLsb' 26 6 = 0b101101#6 ∧
      word.extractLsb' 24 8 = (if nonzero then 0b10110101#8 else 0b10110100#8) ∧
      word.extractLsb' 0 5 = registerBits source ∧
      word.extractLsb' 5 19 = words.extractLsb' 0 19 := by
  cases nonzero <;> refine ⟨?_, ?_, ?_, ?_⟩ <;> apply BitVec.eq_of_getLsbD_eq <;> intro i hi <;>
    simp only [BitVec.getLsbD_extractLsb', BitVec.getLsbD_or, BitVec.getLsbD_and,
      BitVec.getLsbD_shiftLeft, getLsbD_reg] <;>
    interval_cases i <;> simp [testBit_register, registerBits]

end fields

/-! ### Displacements -/

/-- A displacement in words, read as one in bytes. -/
lemma toInt_words {delta : Int} {n : Nat} (hfits : n + 1 ≤ 32) (haligned : delta % 4 = 0)
    (hlow : -2 ^ n ≤ delta.tdiv 4) (hhigh : delta.tdiv 4 < 2 ^ n) :
    ((BitVec.ofInt 32 (delta.tdiv 4)).extractLsb' 0 (n + 1) ++ 0#2).toInt = delta := by
  have hexact : delta.tdiv 4 * 4 = delta := Int.tdiv_mul_cancel (Int.dvd_of_emod_eq_zero haligned)
  have hzero : delta.tdiv 4 / 2 ^ 0 = delta.tdiv 4 := by simp
  rw [BitVec.toInt_append_zero, PcRelative.toInt_extractLsb'_ofInt (by omega) (by rwa [hzero])
    (by rwa [hzero]), hzero]
  omega

/-- A patch that succeeds has written a word for the distance. -/
lemma patches_patchWords {misaligned tooFar : String} {bits : Nat}
    {encode : BitVec 32 → BitVec 32} {offset target : Nat} {P : BitVec 32 → Prop}
    (h : ((target : Int) - offset) % 4 = 0 →
      -2 ^ (bits - 1) ≤ ((target : Int) - offset).tdiv 4 →
      ((target : Int) - offset).tdiv 4 < 2 ^ (bits - 1) →
      P (encode (BitVec.ofInt 32 (((target : Int) - offset).tdiv 4)))) :
    Patches (patchWords misaligned tooFar bits encode offset target) offset P := by
  unfold patchWords
  dsimp only
  split_ifs with hodd hrange
  · exact patches_error
  · exact patches_error
  · obtain ⟨hlow, hhigh⟩ := not_or.mp hrange
    exact patches_patchU32 (h (not_not.mp hodd) (not_lt.mp hlow)
      (Int.lt_of_le_sub_one (not_lt.mp hhigh)))

section patches

variable (offset target : Nat) (source : Register)

/-- A patched conditional branch goes to its target. -/
lemma patches_patchConditionBranch (condition : BitVec 32) :
    Patches (patchConditionBranch offset target condition) offset fun word => decodeBranch word =
      some (.onCondition (condition.setWidth 4), (target : Int) - offset) := by
  apply patches_patchWords
  intro haligned hlow hhigh
  obtain ⟨hbranch, hopcode, hbit, hcondition, hfield⟩ :=
    fields_conditionBranch (BitVec.ofInt 32 (((target : Int) - offset).tdiv 4)) condition
  have hdelta := toInt_words (n := 18) (by omega) haligned hlow hhigh
  rw [decodeBranch, hbranch, hopcode, hbit, hcondition, hfield, hdelta]
  rfl

/-- A patched branch on zero goes to its target. -/
lemma patches_patchZeroBranch :
    Patches (patchZeroBranch offset target source) offset fun word => decodeBranch word =
      some (.onZero (registerBits source), (target : Int) - offset) := by
  apply patches_patchWords
  intro haligned hlow hhigh
  obtain ⟨hbranch, hopcode, hsource, hfield⟩ :=
    fields_registerBranch (BitVec.ofInt 32 (((target : Int) - offset).tdiv 4)) source false
  have hdelta := toInt_words (n := 18) (by omega) haligned hlow hhigh
  simp only [Bool.false_eq_true, if_false] at hbranch hopcode hsource hfield
  rw [decodeBranch, hbranch, hopcode, hsource, hfield, hdelta]
  rfl

/-- A patched branch goes to its target. -/
lemma patches_patchBranch (conditional : Bool) :
    Patches (patchBranch offset target conditional source) offset fun word => decodeBranch word =
      some (if conditional then .onNonzero (registerBits source) else .always,
        (target : Int) - offset) := by
  unfold patchBranch
  cases conditional with
  | true =>
      simp only [if_true]
      apply patches_patchWords
      intro haligned hlow hhigh
      obtain ⟨hbranch, hopcode, hsource, hfield⟩ :=
        fields_registerBranch (BitVec.ofInt 32 (((target : Int) - offset).tdiv 4)) source true
      have hdelta := toInt_words (n := 18) (by omega) haligned hlow hhigh
      simp only [if_true] at hbranch hopcode hsource hfield
      rw [decodeBranch, hbranch, hopcode, hsource, hfield, hdelta]
      rfl
  | false =>
      simp only [Bool.false_eq_true, if_false, Assembler.patchBranch]
      apply patches_patchWords
      intro haligned hlow hhigh
      obtain ⟨hopcode, hfield⟩ :=
        fields_branch (BitVec.ofInt 32 (((target : Int) - offset).tdiv 4))
      have hdelta := toInt_words (n := 25) (by omega) haligned hlow hhigh
      rw [decodeBranch, if_pos hopcode, hfield, hdelta]

end patches

end AArch64

/-! ## x86-64 -/

namespace X86

open UniJit.Lib.PcRelative.X86 (Branch decodeBranch decodeConditional)
open Assembler

/-- What stands in front of the displacement of a branch. -/
def opcodeOf : Branch → CodeBytes
  | .always => [0xE9]
  | .onCondition condition => [0x0F, 0x80 ||| condition.setWidth 8]

/-- The fields of a conditional branch's second opcode byte. -/
lemma opcode_fields (condition : BitVec 4) :
    (0x80 ||| condition.setWidth 8 : BitVec 8).extractLsb' 4 4 = 8#4 ∧
      (0x80 ||| condition.setWidth 8 : BitVec 8).extractLsb' 0 4 = condition := by
  revert condition
  decide

/-- A patched displacement leads to its target. -/
lemma patches_patchBranch (displacement target : Nat) :
    Patches (patchBranch displacement target) displacement fun word =>
      word.toInt = (target : Int) - (displacement + 4) := by
  unfold patchBranch branchDelta
  dsimp only
  split_ifs with hrange
  · exact patches_error
  · apply patches_patchU32
    rw [BitVec.toInt_ofInt]
    apply Int.bmod_eq_of_le <;> omega

/-- The code from a slice on begins with the slice. -/
lemma drop_eq_append_of_slice {code opcode : CodeBytes} {start : Nat}
    (h : slice code start opcode.length = opcode) :
    code.drop start = opcode ++ code.drop (start + opcode.length) := by
  rw [slice] at h
  conv_lhs => rw [← List.take_append_drop opcode.length (code.drop start)]
  rw [h, List.drop_drop]

/-- A branch whose displacement is patched leads to its target. -/
lemma decodeBranch_patchBranch (branch : Branch) {start target : Nat} {code code' : CodeBytes}
    (hopcode : slice code start (opcodeOf branch).length = opcodeOf branch)
    (hfits : start + (opcodeOf branch).length + 4 ≤ code.length)
    (hrun : (patchBranch (start + (opcodeOf branch).length) target).run code = (.ok (), code')) :
    decodeBranch (code'.drop start) =
      some (branch, (opcodeOf branch).length + 4, (target : Int) - start) := by
  obtain ⟨hword, hlength, hframe⟩ := patches_patchBranch _ _ code code' hfits hrun
  have hopcode' : slice code' start (opcodeOf branch).length = opcodeOf branch := by
    rw [hframe start _ (.inl le_rfl), hopcode]
  have hread : PcRelative.X86.displacement32 (code'.drop (start + (opcodeOf branch).length)) =
      (target : Int) - (start + (opcodeOf branch).length + 4 : Nat) := by
    rw [show PcRelative.X86.displacement32 _ =
      (wordAt code' (start + (opcodeOf branch).length)).toInt from rfl, hword]
    push_cast
    ring
  have hroom : 4 ≤ (code'.drop (start + (opcodeOf branch).length)).length := by
    rw [List.length_drop, hlength]
    omega
  rw [drop_eq_append_of_slice hopcode']
  cases branch with
  | always =>
      simp only [opcodeOf, List.length_singleton, List.singleton_append] at hread hroom ⊢
      rw [decodeBranch, if_pos rfl, if_pos hroom, hread]
      congr 3
      push_cast
      ring
  | onCondition condition =>
      simp only [opcodeOf, List.length_cons, List.length_nil, List.cons_append,
        List.nil_append] at hread hroom ⊢
      rw [decodeBranch, if_neg (by decide), if_pos rfl, decodeConditional,
        if_pos ⟨(opcode_fields condition).1, hroom⟩, (opcode_fields condition).2, hread]
      congr 3
      push_cast
      ring

end X86

end UniJit.Jit
