import UniJit.Lib.X86
import UniJit.Ir.MemoryAccess

/-!
# The x86-64 assembler

The emitters of the x86-64 back end that the checks of bounded memory use. Each returns the bytes
it appends to the code buffer; a branch is emitted with an empty displacement, which is patched
once its target is known.

The lemmas `disassemble_*` say which instructions the bytes are: an emitter truncates a byte offset
to 32 bits and takes an immediate as a byte, and the instruction keeps exactly these bits.
-/

namespace UniJit.Jit.X86

open UniJit.Ir UniJit.Lib UniJit.Lib.X86

/-! ## Registers -/

/-- The register `rax`. -/
def kRax : Register := 0
/-- The register `rcx`. -/
def kRcx : Register := 1
/-- The register `rdx`. -/
def kRdx : Register := 2
/-- The register `rsp`. -/
def kRsp : Register := 4
/-- The register `r8`. -/
def kR8 : Register := 8
/-- The register `r9`. -/
def kR9 : Register := 9
/-- The register `r10`. -/
def kR10 : Register := 10
/-- The register `r11`. -/
def kR11 : Register := 11

/-- The register of the arguments. -/
def kArgumentBaseRegister : Register := kR11
/-- The first scratch register. -/
def kScratch0 : Register := kRax
/-- The second scratch register. -/
def kScratch1 : Register := kR10

/-- The registers that values are allocated to. -/
def kAllocationRegisters : List Register := [kRcx, kRdx, kR8, kR9]

/-! ## Emitters -/

/-- The prefix of a 64-bit operation. -/
def rex (regField rmField : Nat) : Byte :=
  BitVec.ofNat 8 (0x48 ||| (regField >>> 3) <<< 2 ||| rmField >>> 3)

/-- The byte of mode and registers. -/
def modrm (mode regField rmField : Nat) : Byte :=
  BitVec.ofNat 8 (mode <<< 6 ||| (regField &&& 7) <<< 3 ||| (rmField &&& 7))

/-- The bytes of a memory operand with a displacement. -/
def memoryModrm (regField base : Nat) : List Byte :=
  modrm 2 regField base ::
    if base &&& 7 = 4 then [BitVec.ofNat 8 (0x20 ||| (base &&& 7))] else []

/-- A 32-bit field; the source casts the byte offset. -/
def emit32 (value : Nat) : List Byte := leBytes 4 (BitVec.ofNat 32 value)

/-- Encodes a move. -/
def moveRegister (destination source : Register) : List Byte :=
  [rex destination source, 0x8B, modrm 3 destination source]

/-- Encodes a load. -/
def load (destination base : Register) (byteOffset : Nat) : List Byte :=
  rex destination base :: 0x8B :: (memoryModrm destination base ++ emit32 byteOffset)

/-- The load of one byte; wider loads are not used by the checks. -/
def loadUnsignedByte (destination base : Register) (byteOffset : Nat) : List Byte :=
  rex destination base :: 0x0F :: 0xB6 :: (memoryModrm destination base ++ emit32 byteOffset)

/-- `add(destination, destination, rhs)`. -/
def addRegister (destination rhs : Register) : List Byte :=
  [rex rhs destination, 0x01, modrm 3 rhs destination]

/-- Encodes a branch on zero. -/
def branchZero (source : Register) : List Byte :=
  [rex source source, 0x85, modrm 3 source source] ++ [0x0F, 0x84] ++ emit32 0

/-- Encodes a branch on nonzero. -/
def branchNonzero (source : Register) : List Byte :=
  [rex source source, 0x85, modrm 3 source source] ++ [0x0F, 0x85] ++ emit32 0

/-- Encodes an unsigned comparison with an immediate, which the processor extends by its sign. -/
def branchUnsignedLess (source : Register) (immediate : Byte) : List Byte :=
  [rex 0 source, 0x83, modrm 3 7 source, immediate] ++ [0x0F, 0x82] ++ emit32 0

/-- Encodes an unsigned comparison. -/
def branchUnsignedGreater (lhs rhs : Register) : List Byte :=
  [rex rhs lhs, 0x39, modrm 3 rhs lhs] ++ [0x0F, 0x87] ++ emit32 0

/-- Encodes a subtraction of an immediate. -/
def subtractImmediate (destination : Register) (immediate : Byte) : List Byte :=
  [rex 0 destination, 0x83, modrm 3 5 destination, immediate]

/-- Encodes a conjunction with an immediate. -/
def bitwiseAndImmediate (destination : Register) (immediate : Byte) : List Byte :=
  [rex 0 destination, 0x83, modrm 3 4 destination, immediate]

/-! ## What the bytes are -/

/-- Decoding behind the prefix. -/
lemma decode_rex (reg rm : Register) (rest : List Byte) :
    decode (rex reg rm :: rest) = decodeRexW (rex reg rm) rest := by
  have hrex : ∀ reg rm : Register, isRexW (rex reg rm) = true ∧ rex reg rm ≠ 0x0F := by decide
  simp only [decode]
  rw [if_neg (hrex reg rm).2, if_pos (hrex reg rm).1]

/-- Decoding behind the prefix of one register. -/
lemma decode_rex_zero (rm : Register) (rest : List Byte) :
    decode (rex 0 rm :: rest) = decodeRexW (rex 0 rm) rest :=
  decode_rex 0 rm rest

/-- The registers that prefix and mode byte name. -/
lemma fields_rex (reg rm : Register) :
    (regField (rex reg rm) (modrm 3 reg rm) = reg ∧ rmField (rex reg rm) (modrm 3 reg rm) = rm ∧
      (modrm 3 reg rm).toNat / 64 = 3) ∧
    regField (rex reg rm) (modrm 2 reg rm) = reg ∧ rmField (rex reg rm) (modrm 2 reg rm) = rm ∧
      (modrm 2 reg rm).toNat / 64 = 2 := by
  revert reg rm
  decide

/-- The opcode extension of an instruction with an immediate is its `reg` field. -/
lemma fields_immediate (rm : Register) :
    (rmField (rex 0 rm) (modrm 3 4 rm) = rm ∧ (modrm 3 4 rm).toNat / 64 = 3 ∧
      (modrm 3 4 rm).toNat / 8 % 8 = 4) ∧
    (rmField (rex 0 rm) (modrm 3 5 rm) = rm ∧ (modrm 3 5 rm).toNat / 64 = 3 ∧
      (modrm 3 5 rm).toNat / 8 % 8 = 5) ∧
    rmField (rex 0 rm) (modrm 3 7 rm) = rm ∧ (modrm 3 7 rm).toNat / 64 = 3 ∧
      (modrm 3 7 rm).toNat / 8 % 8 = 7 := by
  revert rm
  decide

/-- An emitted displacement is read back. -/
lemma decode32_emit32 (value : Nat) (rest : List Byte) :
    decode32 (emit32 value ++ rest) = some (BitVec.ofNat 32 value, rest) := by
  have hbytes := ofLeBytes_leBytes (m := 32) (n := 4) rfl (BitVec.ofNat 32 value)
  exact congrArg (fun w => some (w, rest)) hbytes

/-- A memory operand is its base and the low 32 bits of its offset. -/
lemma decodeDisplacement_memoryModrm (reg base : Register) (byteOffset : Nat) (rest : List Byte) :
    ∃ tail, memoryModrm reg base = modrm 2 reg base :: tail ∧
      decodeDisplacement (modrm 2 reg base) (tail ++ emit32 byteOffset ++ rest) =
        some (BitVec.ofNat 32 byteOffset, rest) := by
  have hfield : ∀ reg base : Register,
      ((modrm 2 reg base).toNat % 8 = 4 ↔ (base : Nat) &&& 7 = 4) := by decide
  unfold memoryModrm decodeDisplacement
  simp only [hfield]
  refine ⟨_, rfl, ?_⟩
  by_cases hbase : (base : Nat) &&& 7 = 4
  · simp only [hbase, if_true, List.cons_append, List.nil_append]
    exact decode32_emit32 byteOffset rest
  · simp only [hbase, if_false, List.nil_append]
    exact decode32_emit32 byteOffset rest

variable (code : List Byte)

/-- Disassembling a move. -/
lemma disassemble_moveRegister (destination source : Register) :
    disassemble (moveRegister destination source ++ code) =
      (disassemble code).map (.move destination source :: ·) := by
  refine disassemble_append (by simp [moveRegister]) ?_
  obtain ⟨⟨hreg, hrm, hmode⟩, -⟩ := fields_rex destination source
  simp [moveRegister, decode_rex, decodeRexW, hmode, hreg, hrm]

/-- Disassembling an addition. -/
lemma disassemble_addRegister (destination rhs : Register) :
    disassemble (addRegister destination rhs ++ code) =
      (disassemble code).map (.add destination rhs :: ·) := by
  refine disassemble_append (by simp [addRegister]) ?_
  obtain ⟨⟨hreg, hrm, hmode⟩, -⟩ := fields_rex rhs destination
  simp [addRegister, decode_rex, decodeRexW, hmode, hreg, hrm]

/-- Disassembling a load. -/
lemma disassemble_load (destination base : Register) (byteOffset : Nat) :
    disassemble (load destination base byteOffset ++ code) =
      (disassemble code).map (.load destination base (BitVec.ofNat 32 byteOffset) :: ·) := by
  refine disassemble_append (by simp [load]) ?_
  obtain ⟨-, hreg, hrm, hmode⟩ := fields_rex destination base
  obtain ⟨tail, hmodrm, hdisplacement⟩ :=
    decodeDisplacement_memoryModrm destination base byteOffset code
  simp [load, decode_rex, decodeRexW, hmodrm, hmode, hreg, hrm] at hdisplacement ⊢
  simp [hdisplacement]

/-- Disassembling a load of a byte. -/
lemma disassemble_loadUnsignedByte (destination base : Register) (byteOffset : Nat) :
    disassemble (loadUnsignedByte destination base byteOffset ++ code) =
      (disassemble code).map (.loadByte destination base (BitVec.ofNat 32 byteOffset) :: ·) := by
  refine disassemble_append (by simp [loadUnsignedByte]) ?_
  obtain ⟨-, hreg, hrm, hmode⟩ := fields_rex destination base
  obtain ⟨tail, hmodrm, hdisplacement⟩ :=
    decodeDisplacement_memoryModrm destination base byteOffset code
  simp [loadUnsignedByte, decode_rex, decodeRexW, hmodrm, hmode, hreg, hrm]
    at hdisplacement ⊢
  simp [hdisplacement]

/-- Disassembling a subtraction of an immediate. -/
lemma disassemble_subtractImmediate (destination : Register) (immediate : Byte) :
    disassemble (subtractImmediate destination immediate ++ code) =
      (disassemble code).map (.subtractImmediate destination immediate :: ·) := by
  refine disassemble_append (by simp [subtractImmediate]) ?_
  obtain ⟨-, ⟨hrm, hmode, hdigit⟩, -⟩ := fields_immediate destination
  simp [subtractImmediate, decode_rex_zero, decodeRexW, immediateInstruction, hmode, hrm,
    hdigit]

/-- Disassembling a conjunction with an immediate. -/
lemma disassemble_bitwiseAndImmediate (destination : Register) (immediate : Byte) :
    disassemble (bitwiseAndImmediate destination immediate ++ code) =
      (disassemble code).map (.andImmediate destination immediate :: ·) := by
  refine disassemble_append (by simp [bitwiseAndImmediate]) ?_
  obtain ⟨⟨hrm, hmode, hdigit⟩, -⟩ := fields_immediate destination
  simp [bitwiseAndImmediate, decode_rex_zero, decodeRexW, immediateInstruction, hmode, hrm,
    hdigit]

/-- A conditional branch with an empty displacement. -/
lemma disassemble_branch {opcode : Byte} {condition : Condition}
    (h : conditionOf opcode = some condition) :
    disassemble ([0x0F, opcode] ++ emit32 0 ++ code) =
      (disassemble code).map (.branch condition 0 :: ·) := by
  refine disassemble_append (by simp) ?_
  have hdecode := decode32_emit32 0 code
  simp only [List.cons_append, List.nil_append] at hdecode ⊢
  simp [decode, h, hdecode]

/-- A test of a register with itself, and a branch on the result. -/
lemma disassemble_branchTest {opcode : Byte} {condition : Condition}
    (h : conditionOf opcode = some condition) (source : Register) :
    disassemble ([rex source source, 0x85, modrm 3 source source] ++ [0x0F, opcode] ++ emit32 0 ++
        code) =
      (disassemble code).map ([.test source source, .branch condition 0] ++ ·) := by
  have htest : disassemble ([rex source source, 0x85, modrm 3 source source] ++
      ([0x0F, opcode] ++ emit32 0 ++ code)) =
        (disassemble ([0x0F, opcode] ++ emit32 0 ++ code)).map (.test source source :: ·) := by
    refine disassemble_append (by simp) ?_
    obtain ⟨⟨hreg, hrm, hmode⟩, -⟩ := fields_rex source source
    simp [decode_rex, decodeRexW, hmode, hreg, hrm]
  rw [List.append_assoc, List.append_assoc, ← List.append_assoc [0x0F, opcode], htest,
    disassemble_branch code h, Option.map_map]
  rfl

/-- Disassembling a branch on zero. -/
lemma disassemble_branchZero (source : Register) :
    disassemble (branchZero source ++ code) =
      (disassemble code).map ([.test source source, .branch .equal 0] ++ ·) :=
  disassemble_branchTest code rfl source

/-- Disassembling a branch on nonzero. -/
lemma disassemble_branchNonzero (source : Register) :
    disassemble (branchNonzero source ++ code) =
      (disassemble code).map ([.test source source, .branch .notEqual 0] ++ ·) :=
  disassemble_branchTest code rfl source

/-- Disassembling an unsigned comparison with an immediate. -/
lemma disassemble_branchUnsignedLess (source : Register) (immediate : Byte) :
    disassemble (branchUnsignedLess source immediate ++ code) =
      (disassemble code).map ([.compareImmediate source immediate, .branch .below 0] ++ ·) := by
  have hcompare : disassemble ([rex 0 source, 0x83, modrm 3 7 source, immediate] ++
      ([0x0F, 0x82] ++ emit32 0 ++ code)) =
        (disassemble ([0x0F, 0x82] ++ emit32 0 ++ code)).map
          (.compareImmediate source immediate :: ·) := by
    refine disassemble_append (by simp) ?_
    obtain ⟨-, -, hrm, hmode, hdigit⟩ := fields_immediate source
    simp [decode_rex_zero, decodeRexW, immediateInstruction, hmode, hrm, hdigit]
  rw [branchUnsignedLess, List.append_assoc, List.append_assoc, ← List.append_assoc [0x0F, 0x82],
    hcompare, disassemble_branch code (show conditionOf 0x82 = some .below from rfl),
    Option.map_map]
  rfl

/-- Disassembling an unsigned comparison. -/
lemma disassemble_branchUnsignedGreater (lhs rhs : Register) :
    disassemble (branchUnsignedGreater lhs rhs ++ code) =
      (disassemble code).map ([.compare lhs rhs, .branch .above 0] ++ ·) := by
  have hcompare : disassemble ([rex rhs lhs, 0x39, modrm 3 rhs lhs] ++
      ([0x0F, 0x87] ++ emit32 0 ++ code)) =
        (disassemble ([0x0F, 0x87] ++ emit32 0 ++ code)).map (.compare lhs rhs :: ·) := by
    refine disassemble_append (by simp) ?_
    obtain ⟨⟨hreg, hrm, hmode⟩, -⟩ := fields_rex rhs lhs
    simp [decode_rex, decodeRexW, hmode, hreg, hrm]
  rw [branchUnsignedGreater, List.append_assoc, List.append_assoc,
    ← List.append_assoc [0x0F, 0x87], hcompare,
    disassemble_branch code (show conditionOf 0x87 = some .above from rfl), Option.map_map]
  rfl

end UniJit.Jit.X86
