import UniJit.Lib.LittleEndian

/-!
# A fragment of x86-64

The instructions that move, load, add and compare 64-bit registers, with conditional branches, as
bytes and as steps of a machine.

`decode` reads one instruction: the REX prefix supplies the operand size and the high bits of the
register fields, a memory operand is a base register with a 32-bit displacement. Displacements and
8-bit immediates are **sign-extended** to 64 bits (`step`), which is where an encoder that cuts a
larger constant down to a byte goes wrong. `disassemble` reads a block of instructions, and
`execute` runs it until a branch is taken or the block ends.
-/

namespace UniJit.Lib.X86

/-- A register number. -/
abbrev Register := Fin 16

/-- The conditions of the branches in the fragment. -/
inductive Condition
  | below | equal | notEqual | above
  deriving DecidableEq, Repr

/-- The instructions of this subset. -/
inductive Instruction
  | move (destination source : Register)
  | load (destination base : Register) (displacement : BitVec 32)
  | loadByte (destination base : Register) (displacement : BitVec 32)
  | add (destination source : Register)
  | test (lhs rhs : Register)
  | compare (lhs rhs : Register)
  | compareImmediate (lhs : Register) (immediate : BitVec 8)
  | subtractImmediate (destination : Register) (immediate : BitVec 8)
  | andImmediate (destination : Register) (immediate : BitVec 8)
  | branch (condition : Condition) (displacement : BitVec 32)
  deriving DecidableEq, Repr

/-! ## Decoding -/

/-- The register that the `reg` field of a ModRM byte denotes, with its REX prefix. -/
def regField (rex modrm : BitVec 8) : Register :=
  Fin.ofNat 16 (rex.toNat / 4 % 2 * 8 + modrm.toNat / 8 % 8)

/-- The register that the `rm` field of a ModRM byte denotes, with its REX prefix. -/
def rmField (rex modrm : BitVec 8) : Register :=
  Fin.ofNat 16 (rex.toNat % 2 * 8 + modrm.toNat % 8)

/-- A REX prefix for 64-bit operands without an index register. -/
def isRexW (rex : BitVec 8) : Bool := rex &&& 0xFA == 0x48

/-- The condition of a branch's opcode. -/
def conditionOf (opcode : BitVec 8) : Option Condition :=
  if opcode = 0x82 then some .below
  else if opcode = 0x84 then some .equal
  else if opcode = 0x85 then some .notEqual
  else if opcode = 0x87 then some .above
  else none

/-- Reads a 32-bit immediate. -/
def decode32 : List (BitVec 8) → Option (BitVec 32 × List (BitVec 8))
  | a :: b :: c :: d :: rest => some (ofLeBytes 32 [a, b, c, d], rest)
  | _ => none

/-- The displacement of a memory operand, after its ModRM byte. A base whose low bits are those of
the stack pointer takes an extra byte without an index. -/
def decodeDisplacement (modrm : BitVec 8) (code : List (BitVec 8)) :
    Option (BitVec 32 × List (BitVec 8)) :=
  if modrm.toNat % 8 = 4 then
    match code with
    | sib :: rest => if sib = 0x24 then decode32 rest else none
    | [] => none
  else decode32 code

/-- The group of instructions with an 8-bit immediate. -/
def immediateInstruction (modrm : BitVec 8) (register : Register) (immediate : BitVec 8) :
    Option Instruction :=
  if modrm.toNat / 8 % 8 = 4 then some (.andImmediate register immediate)
  else if modrm.toNat / 8 % 8 = 5 then some (.subtractImmediate register immediate)
  else if modrm.toNat / 8 % 8 = 7 then some (.compareImmediate register immediate)
  else none

/-- The instruction after a REX prefix. -/
def decodeRexW (rex : BitVec 8) : List (BitVec 8) → Option (Instruction × List (BitVec 8))
  | opcode :: modrm :: rest =>
      if opcode = 0x0F then
        -- a two-byte opcode: `modrm` is its second byte
        match rest with
        | field :: rest =>
            if modrm = 0xB6 ∧ field.toNat / 64 = 2 then
              (decodeDisplacement field rest).map fun (displacement, rest) =>
                (.loadByte (regField rex field) (rmField rex field) displacement, rest)
            else none
        | [] => none
      else if modrm.toNat / 64 = 2 then
        if opcode = 0x8B then
          (decodeDisplacement modrm rest).map fun (displacement, rest) =>
            (.load (regField rex modrm) (rmField rex modrm) displacement, rest)
        else none
      else if modrm.toNat / 64 = 3 then
        if opcode = 0x8B then some (.move (regField rex modrm) (rmField rex modrm), rest)
        else if opcode = 0x01 then some (.add (rmField rex modrm) (regField rex modrm), rest)
        else if opcode = 0x85 then some (.test (rmField rex modrm) (regField rex modrm), rest)
        else if opcode = 0x39 then some (.compare (rmField rex modrm) (regField rex modrm), rest)
        else if opcode = 0x83 then
          match rest with
          | immediate :: rest =>
              (immediateInstruction modrm (rmField rex modrm) immediate).map (·, rest)
          | [] => none
        else none
      else none
  | _ => none

/-- The first instruction of a block, with what follows it. -/
def decode : List (BitVec 8) → Option (Instruction × List (BitVec 8))
  | first :: rest =>
      if first = 0x0F then
        match rest with
        | opcode :: rest =>
            (conditionOf opcode).bind fun condition =>
              (decode32 rest).map fun (displacement, rest) =>
                (.branch condition displacement, rest)
        | [] => none
      else if isRexW first then decodeRexW first rest
      else none
  | [] => none

/-- The instructions of a block. -/
def disassemble (code : List (BitVec 8)) : Option (List Instruction) :=
  if code = [] then some []
  else
    match decode code with
    | none => none
    | some (instruction, rest) =>
        if rest.length < code.length then (disassemble rest).map (instruction :: ·) else none
termination_by code.length

/-- **Sequencing**: a block that starts with an instruction. -/
lemma disassemble_append {bytes rest : List (BitVec 8)} {i : Instruction} (hbytes : bytes ≠ [])
    (h : decode (bytes ++ rest) = some (i, rest)) :
    disassemble (bytes ++ rest) = (disassemble rest).map (i :: ·) := by
  have hpos := List.length_pos_iff.mpr hbytes
  have hne : bytes ++ rest ≠ [] := by simp [hbytes]
  have hlt : rest.length < (bytes ++ rest).length := by
    rw [List.length_append]
    omega
  rw [disassemble, if_neg hne, h]
  simp only [hlt, if_true]

@[simp] lemma disassemble_nil : disassemble [] = some [] := by
  rw [disassemble, if_pos rfl]

/-! ## Execution -/

/-- Registers, memory and two flags. -/
structure State where
  registers : Register → BitVec 64
  memory : BitVec 64 → BitVec 8
  carry : Bool := false
  zero : Bool := false

namespace State

/-- Writes a register. -/
def set (s : State) (r : Register) (value : BitVec 64) : State :=
  { s with registers := Function.update s.registers r value }

/-- Writes the flags. -/
def setFlags (s : State) (carry zero : Bool) : State := { s with carry := carry, zero := zero }

/-- The register that was written holds the value. -/
@[simp] lemma set_registers_self (s : State) (r : Register) (value : BitVec 64) :
    (s.set r value).registers r = value := by
  simp [set]

/-- The other registers are as they were. -/
lemma set_registers_of_ne (s : State) {r q : Register} (h : q ≠ r) (value : BitVec 64) :
    (s.set r value).registers q = s.registers q := by
  simp [set, Function.update_of_ne h]

@[simp] lemma set_memory (s : State) (r : Register) (value : BitVec 64) :
    (s.set r value).memory = s.memory := rfl

@[simp] lemma setFlags_registers (s : State) (carry zero : Bool) :
    (s.setFlags carry zero).registers = s.registers := rfl

@[simp] lemma setFlags_memory (s : State) (carry zero : Bool) :
    (s.setFlags carry zero).memory = s.memory := rfl

end State

/-- The 64-bit value at an address. -/
def readWord (memory : BitVec 64 → BitVec 8) (address : BitVec 64) : BitVec 64 :=
  ofLeBytes 64 ((List.range 8).map fun i => memory (address + BitVec.ofNat 64 i))

/-- The address of a memory operand. -/
def State.address (s : State) (base : Register) (displacement : BitVec 32) : BitVec 64 :=
  s.registers base + displacement.signExtend 64

/-- The condition of a branch, over the flags. -/
def Condition.holds (s : State) : Condition → Bool
  | .below => s.carry
  | .equal => s.zero
  | .notEqual => !s.zero
  | .above => !s.carry && !s.zero

/-- The flags of a comparison: an unsigned borrow, and equality. -/
def State.compare (s : State) (lhs rhs : BitVec 64) : State :=
  s.setFlags (decide (lhs.toNat < rhs.toNat)) (lhs == rhs)

/-- One instruction; `none` if it is a branch that is taken. -/
def step (i : Instruction) (s : State) : Option State :=
  match i with
  | .move destination source => some (s.set destination (s.registers source))
  | .load destination base displacement =>
      some (s.set destination (readWord s.memory (s.address base displacement)))
  | .loadByte destination base displacement =>
      some (s.set destination ((s.memory (s.address base displacement)).setWidth 64))
  | .add destination source =>
      let sum := s.registers destination + s.registers source
      some ((s.set destination sum).setFlags
        (decide (sum.toNat < (s.registers destination).toNat)) (sum == 0))
  | .test lhs rhs => some (s.setFlags false (s.registers lhs &&& s.registers rhs == 0))
  | .compare lhs rhs => some (s.compare (s.registers lhs) (s.registers rhs))
  | .compareImmediate lhs immediate =>
      some (s.compare (s.registers lhs) (immediate.signExtend 64))
  | .subtractImmediate destination immediate =>
      let value := s.registers destination
      some ((s.compare value (immediate.signExtend 64)).set destination
        (value - immediate.signExtend 64))
  | .andImmediate destination immediate =>
      let value := s.registers destination &&& immediate.signExtend 64
      some ((s.set destination value).setFlags false (value == 0))
  | .branch condition _ => if condition.holds s then none else some s

/-- How a block ends. -/
inductive Outcome
  | branched
  | completed (s : State)

/-- Run a block until a branch is taken or the block ends. -/
def execute : List Instruction → State → Outcome
  | [], s => .completed s
  | i :: is, s =>
      match step i s with
      | none => .branched
      | some s' => execute is s'

section execution

variable (s : State) (is : List Instruction)

/-- Running a move. -/
@[simp] lemma execute_move (destination source : Register) :
    execute (.move destination source :: is) s =
      execute is (s.set destination (s.registers source)) := rfl

/-- Running a load of a word. -/
@[simp] lemma execute_load (destination base : Register) (displacement : BitVec 32) :
    execute (.load destination base displacement :: is) s =
      execute is (s.set destination (readWord s.memory (s.address base displacement))) := rfl

/-- Running a load of a byte. -/
@[simp] lemma execute_loadByte (destination base : Register) (displacement : BitVec 32) :
    execute (.loadByte destination base displacement :: is) s =
      execute is (s.set destination ((s.memory (s.address base displacement)).setWidth 64)) := rfl

/-- Running an addition. -/
@[simp] lemma execute_add (destination source : Register) :
    execute (.add destination source :: is) s =
      execute is ((s.set destination (s.registers destination + s.registers source)).setFlags
        (decide ((s.registers destination + s.registers source).toNat <
          (s.registers destination).toNat))
        (s.registers destination + s.registers source == 0)) := rfl

/-- Running a subtraction of an immediate. -/
@[simp] lemma execute_subtractImmediate (destination : Register) (immediate : BitVec 8) :
    execute (.subtractImmediate destination immediate :: is) s =
      execute is ((s.compare (s.registers destination) (immediate.signExtend 64)).set destination
        (s.registers destination - immediate.signExtend 64)) := rfl

/-- Running a conjunction with an immediate. -/
@[simp] lemma execute_andImmediate (destination : Register) (immediate : BitVec 8) :
    execute (.andImmediate destination immediate :: is) s =
      execute is ((s.set destination
        (s.registers destination &&& immediate.signExtend 64)).setFlags false
          (s.registers destination &&& immediate.signExtend 64 == 0)) := rfl

end execution

/-! ## Guards

A comparison followed by a branch on its flags. -/

section guards

variable (s : State) (is : List Instruction) (displacement : BitVec 32)

/-- Running a branch on zero. -/
lemma execute_testEqual (r : Register) :
    execute (.test r r :: .branch .equal displacement :: is) s =
      if s.registers r = 0 then .branched
      else execute is (s.setFlags false (s.registers r == 0)) := by
  simp only [execute, step, Condition.holds, BitVec.and_self, State.setFlags]
  by_cases hzero : s.registers r = 0#64 <;> simp [hzero]

/-- Running a branch on nonzero. -/
lemma execute_testNotEqual (r : Register) :
    execute (.test r r :: .branch .notEqual displacement :: is) s =
      if s.registers r ≠ 0 then .branched
      else execute is (s.setFlags false (s.registers r == 0)) := by
  simp only [execute, step, Condition.holds, BitVec.and_self, State.setFlags]
  by_cases hzero : s.registers r = 0#64 <;> simp [hzero]

/-- Running an unsigned comparison with an immediate. -/
lemma execute_compareImmediateBelow (r : Register) (immediate : BitVec 8) :
    execute (.compareImmediate r immediate :: .branch .below displacement :: is) s =
      if (s.registers r).toNat < (immediate.signExtend 64).toNat then .branched
      else execute is (s.compare (s.registers r) (immediate.signExtend 64)) := by
  simp only [execute, step, Condition.holds, State.compare, State.setFlags, decide_eq_true_eq]
  split_ifs <;> rfl

/-- Running an unsigned comparison. -/
lemma execute_compareAbove (lhs rhs : Register) :
    execute (.compare lhs rhs :: .branch .above displacement :: is) s =
      if (s.registers rhs).toNat < (s.registers lhs).toNat then .branched
      else execute is (s.compare (s.registers lhs) (s.registers rhs)) := by
  have habove : (!decide ((s.registers lhs).toNat < (s.registers rhs).toNat) &&
      !(s.registers lhs == s.registers rhs)) =
        decide ((s.registers rhs).toNat < (s.registers lhs).toNat) := by
    have heq : (s.registers lhs = s.registers rhs) ↔
        (s.registers lhs).toNat = (s.registers rhs).toNat := BitVec.toNat_inj.symm
    by_cases hlt : (s.registers lhs).toNat < (s.registers rhs).toNat
    · have hnot : ¬ (s.registers rhs).toNat < (s.registers lhs).toNat := by omega
      simp [hlt, hnot]
    · by_cases hsame : (s.registers lhs).toNat = (s.registers rhs).toNat
      · simp [heq.mpr hsame]
      · have hgt : (s.registers rhs).toNat < (s.registers lhs).toNat := by omega
        have hne : s.registers lhs ≠ s.registers rhs := fun h => hsame (heq.mp h)
        simp [hlt, hgt, hne]
  simp only [execute, step, Condition.holds, State.compare, State.setFlags, habove,
    decide_eq_true_eq]
  split_ifs <;> rfl

@[simp] lemma State.compare_registers (lhs rhs : BitVec 64) :
    (s.compare lhs rhs).registers = s.registers := rfl

@[simp] lemma State.compare_memory (lhs rhs : BitVec 64) :
    (s.compare lhs rhs).memory = s.memory := rfl

end guards

/-! ## Blocks of guards -/

/-- A block completes, in a state with `Q`, exactly when `c` holds; otherwise it branches. -/
def Decides (is : List Instruction) (s : State) (c : Prop) (Q : State → Prop) : Prop :=
  (¬ c → execute is s = .branched) ∧ (c → ∃ s', execute is s = .completed s' ∧ Q s')

namespace Decides

variable {s : State} {is : List Instruction} {c d : Prop} {Q : State → Prop}

lemma done (h : Q s) : Decides [] s True Q :=
  ⟨fun hfalse => absurd True.intro hfalse, fun _ => ⟨s, rfl, h⟩⟩

lemma congr (h : Decides is s c Q) (hcd : c ↔ d) : Decides is s d Q := by
  rwa [← propext hcd]

/-- Instructions that do not branch. -/
lemma straight {js : List Instruction} {s' : State} (hstep : execute js s = execute is s')
    (h : Decides is s' c Q) : Decides js s c Q := by
  rwa [Decides, hstep]

/-- A weaker description of the state is decided too. -/
lemma weaken {R : State → Prop} (h : Decides is s c Q) (hQR : ∀ s', Q s' → R s') :
    Decides is s c R := by
  refine ⟨h.1, fun hc => ?_⟩
  obtain ⟨s', hexecute, hs'⟩ := h.2 hc
  exact ⟨s', hexecute, hQR s' hs'⟩

/-- A guard in front of a block: it branches unless `c` holds. -/
lemma guard {g : List Instruction} {s' : State} {p : Prop}
    (hbranch : ¬ p → execute (g ++ is) s = .branched)
    (hpass : p → execute (g ++ is) s = execute is s') (h : p → Decides is s' c Q) :
    Decides (g ++ is) s (p ∧ c) Q := by
  by_cases hp : p
  · constructor
    · intro hnot
      rw [hpass hp]
      exact (h hp).1 fun hc => hnot ⟨hp, hc⟩
    · intro hboth
      rw [hpass hp]
      exact (h hp).2 hboth.2
  · exact ⟨fun _ => hbranch hp, fun hboth => absurd hboth.1 hp⟩

variable {displacement : BitVec 32}

/-- A branch on zero adds the condition that the register is not zero. -/
lemma testEqual {r : Register} {value : BitVec 64} (hr : s.registers r = value)
    (h : Decides is (s.setFlags false (s.registers r == 0)) c Q) :
    Decides (.test r r :: .branch .equal displacement :: is) s (value ≠ 0 ∧ c) Q := by
  subst hr
  refine guard (g := [_, _]) (fun hzero => ?_) (fun hne => ?_) fun _ => h
  · exact (execute_testEqual ..).trans (if_pos (not_not.mp hzero))
  · exact (execute_testEqual ..).trans (if_neg hne)

/-- A branch on nonzero adds the condition that the register is zero. -/
lemma testNotEqual {r : Register} {value : BitVec 64} (hr : s.registers r = value)
    (h : Decides is (s.setFlags false (s.registers r == 0)) c Q) :
    Decides (.test r r :: .branch .notEqual displacement :: is) s (value = 0 ∧ c) Q := by
  subst hr
  refine guard (g := [_, _]) (fun hne => ?_) (fun hzero => ?_) fun _ => h
  · exact (execute_testNotEqual ..).trans (if_pos hne)
  · exact (execute_testNotEqual ..).trans (if_neg (not_not.mpr hzero))

/-- A comparison with an immediate adds the condition that it is reached. -/
lemma compareImmediateBelow {r : Register} {immediate : BitVec 8} {value : BitVec 64}
    (hr : s.registers r = value)
    (h : Decides is (s.compare (s.registers r) (immediate.signExtend 64)) c Q) :
    Decides (.compareImmediate r immediate :: .branch .below displacement :: is) s
      ((immediate.signExtend 64).toNat ≤ value.toNat ∧ c) Q := by
  subst hr
  refine guard (g := [_, _]) (fun hlt => ?_) (fun hle => ?_) fun _ => h
  · exact (execute_compareImmediateBelow ..).trans (if_pos (not_le.mp hlt))
  · exact (execute_compareImmediateBelow ..).trans (if_neg (not_lt.mpr hle))

/-- A comparison adds the condition that it is not exceeded. -/
lemma compareAbove {lhs rhs : Register} {l r : BitVec 64} (hl : s.registers lhs = l)
    (hr : s.registers rhs = r)
    (h : Decides is (s.compare (s.registers lhs) (s.registers rhs)) c Q) :
    Decides (.compare lhs rhs :: .branch .above displacement :: is) s
      (l.toNat ≤ r.toNat ∧ c) Q := by
  subst hl hr
  refine guard (g := [_, _]) (fun hlt => ?_) (fun hle => ?_) fun _ => h
  · exact (execute_compareAbove ..).trans (if_pos (not_le.mp hlt))
  · exact (execute_compareAbove ..).trans (if_neg (not_lt.mpr hle))

end Decides

end UniJit.Lib.X86
