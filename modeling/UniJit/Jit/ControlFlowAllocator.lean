import UniJit.Jit.RegisterAllocator
import UniJit.Ir.ControlFlowFacts

/-!
# Register allocation of control-flow graphs

`allocateControlFlowRegisters` scans each block on its own: registers hold values only inside
the block that defines them. A value that another block uses has a persistent stack slot; a value
without a register, or one that must survive a call or a possible exit, has a slot that other
blocks may reuse.

The scan of a block is the linear scan of `UniJit.Lib.Bank` over the positions of the block. With
`reuseFinalFloatLhs`, a floating-point result may take the register of its left operand when that
operand dies there.
-/

namespace UniJit.Jit

open UniJit.Ir UniJit.Lib

/-- Where the values of a graph live. -/
structure ControlFlowRegisterAllocation where
  registerIndices : List (Option Nat)
  ownerBlocks : List (Option Nat)
  requiresStack : List Bool
  stackIndices : List (Option Nat)
  stackSlots : Nat
  liveAcrossCalls : List (List Value)
  deriving DecidableEq, Repr

section allocator

variable (f : ControlFlowFunction) (wordRegisterCount simdRegisterCount : Nat)
  (requirements : StackMapRequirements) (reuseFinalFloatLhs : Bool)
  (vectorMode : VectorRegisterMode)

/-! ## Owners and uses -/

/-- All instruction positions, in the order of the blocks and of their instructions: the value,
its block and its position. -/
def instructionPositions : List (Value × Nat × Nat) :=
  f.blocks.zipIdx.flatMap fun (block, b) => block.instructions.zipIdx.map fun (v, i) => (v, b, i)

/-- The block and the position of each value. -/
def assignOwners : Owners :=
  (instructionPositions f).foldl (fun owners (v, b, i) => owners.set v.index (some (b, i)))
    (List.replicate f.nodes.length none)

/-- The position of a value in block `b`, if that block defines it. -/
def localPosition (owners : Owners) (b : Nat) (v : Value) : Option Nat :=
  if v.valid then
    match owners.getD v.index none with
    | some (owner, position) => if owner = b then some position else none
    | none => none
  else none

/-- The node of a value. -/
def nodeOf (v : Value) : ControlNode := f.nodes.getD v.index { opcode := .parameter }

/-- The values used at an instruction: its operands and the values its stack map recovers. -/
def instructionUses (v : Value) : List Value :=
  match (nodeOf f v).opcode with
  | .op o =>
      visitOperands f.toSideTables (nodeOf f v) o ++ requiredValues requirements (nodeOf f v) o
  | _ => []

/-- The values used at a terminator. -/
def terminatorUses : ControlTerminator → List Value
  | .none => []
  | .ret value => [value]
  | .jump edge => edge.arguments
  | .branch condition trueEdge falseEdge =>
      condition :: (trueEdge.arguments ++ falseEdge.arguments)

/-- Notes a use of a value in its own block. -/
def noteLocalUse (owners : Owners) (b index : Nat) (lastUse : List Nat) (v : Value) : List Nat :=
  match localPosition owners b v with
  | some definition => lastUse.modify definition (max · index)
  | none => lastUse

/-- Notes the uses of an instruction. -/
def noteInstruction (owners : Owners) (b : Nat) (lastUse : List Nat) (instruction : Value × Nat) :
    List Nat :=
  (instructionUses f requirements instruction.1).foldl (noteLocalUse owners b instruction.2)
    (lastUse.set instruction.2 instruction.2)

/-- Notes a use by the terminator. -/
def noteTerminatorUse (owners : Owners) (b terminatorPosition : Nat) (lastUse : List Nat)
    (v : Value) : List Nat :=
  match localPosition owners b v with
  | some definition => lastUse.set definition terminatorPosition
  | none => lastUse

/-- The last use of each position of a block. -/
def blockLastUses (owners : Owners) (b : Nat) (block : BasicBlock) : List Nat :=
  (terminatorUses block.terminator).foldl
    (noteTerminatorUse owners b block.instructions.length)
    (block.instructions.zipIdx.foldl (noteInstruction f requirements owners b)
      (List.replicate block.instructions.length 0))

/-! ## The scan of a block -/

/-- What the scan of the blocks has assigned. -/
structure BlockScan where
  registers : List (Option Nat)
  liveAcrossCalls : List (List Value)
  needsStackSlot : List Bool
  banks : RegisterBank → Bank

/-- Operations that may leave the function with its live values described by a stack map. -/
def mayExit : ControlOpcode → Bool
  | .op o => o.isRuntimeExit
  | _ => false

/-- The operations that may leave their result in the left operand's register. -/
def canReuseFloatLhs : ControlOpcode → Bool
  | .op (.binary .floatAdd) | .op (.binary .floatSubtract) | .op (.binary .floatMultiply)
  | .op (.binary .floatDivide) | .op (.unary .floatNegate) => true
  | _ => false

/-- The value is the result of a possible call. -/
def isCallNode (v : Value) : Bool :=
  (nodeOf f v).opcode.operation?.any (isCallLike f.toSideTables (nodeOf f v))

/-- Record the values of active positions that are used after the call at `index`. -/
def noteLiveAcross (block : BasicBlock) (lastUse : Nat → Nat) (s : BlockScan) (v : Value)
    (index : Nat) : BlockScan :=
  if isCallNode f v then
    let live := ((s.banks .word).active ++ (s.banks .simd).active).filter (index < lastUse ·)
    { s with
      liveAcrossCalls := s.liveAcrossCalls.modify v.index
        (· ++ live.filterMap (block.instructions[·]?)) }
  else s

/-- Sets the flags of values. -/
def setFlags (flags : List Bool) (values : List Value) : List Bool :=
  values.foldl (fun flags v => flags.set v.index true) flags

/-- Request slots for the values of active positions that are in use at a possible exit. -/
def requireLiveStack (block : BasicBlock) (lastUse : Nat → Nat) (s : BlockScan) (v : Value)
    (index : Nat) : BlockScan :=
  if mayExit (nodeOf f v).opcode then
    let live := ((s.banks .word).active ++ (s.banks .simd).active).filter (index ≤ lastUse ·)
    { s with
      needsStackSlot := setFlags s.needsStackSlot (live.filterMap (block.instructions[·]?)) }
  else s

/-- The register of the value at a position of a block. -/
def registerAt (registers : List (Option Nat)) (block : BasicBlock) (position : Nat) :
    Option Nat :=
  block.instructions[position]?.bind fun v => registers.getD v.index none

/-- The position and register of a left operand whose register the result at `index` may take. -/
def reusableLhs (owners : Owners) (b : Nat) (block : BasicBlock) (lastUse : Nat → Nat)
    (registers : List (Option Nat)) (bank : Bank) (v : Value) (index : Nat) :
    Option (Nat × Nat) :=
  if reuseFinalFloatLhs ∧ canReuseFloatLhs (nodeOf f v).opcode then
    match localPosition owners b (nodeOf f v).lhs with
    | some position =>
        if position ∈ bank.active ∧ lastUse position = index then
          (registerAt registers block position).map fun register => (position, register)
        else none
    | none => none
  else none

/-- Gives a register to a value. -/
def BlockScan.assign (s : BlockScan) (bank : RegisterBank) (b : Bank) (v : Value)
    (register : Nat) : BlockScan :=
  { s with
    registers := s.registers.set v.index (some register)
    banks := Function.update s.banks bank b }

/-- The register choice for the instruction at `index`. -/
def chooseRegister (owners : Owners) (b : Nat) (block : BasicBlock) (lastUse : Nat → Nat)
    (s : BlockScan) (v : Value) (index : Nat) : BlockScan :=
  match registerBank (f.valueType v) vectorMode with
  | none => s
  | some bank =>
      let expired := (s.banks bank).expire lastUse (registerAt s.registers block) index
      match reusableLhs f reuseFinalFloatLhs owners b block lastUse s.registers expired v index with
      | some (position, register) =>
          s.assign bank ⟨expired.active.erase position ++ [index], expired.free⟩ v register
      | none =>
          match expired.free with
          | [] => { s with banks := Function.update s.banks bank expired }
          | register :: rest => s.assign bank ⟨expired.active ++ [index], rest⟩ v register

/-- One iteration of the scan of a block. -/
def blockScanStep (owners : Owners) (b : Nat) (block : BasicBlock) (lastUse : Nat → Nat)
    (s : BlockScan) (instruction : Value × Nat) : BlockScan :=
  let s := noteLiveAcross f block lastUse s instruction.1 instruction.2
  let s := requireLiveStack f block lastUse s instruction.1 instruction.2
  chooseRegister f reuseFinalFloatLhs vectorMode owners b block lastUse s instruction.1
    instruction.2

/-- The scan of one block, with all registers free at its start. -/
def scanBlock (owners : Owners) (s : BlockScan) (indexed : BasicBlock × Nat) : BlockScan :=
  let (block, b) := indexed
  let lastUses := blockLastUses f requirements owners b block
  block.instructions.zipIdx.foldl
    (blockScanStep f reuseFinalFloatLhs vectorMode owners b block (fun p => lastUses.getD p 0))
    { s with
      banks := fun bank => Bank.full (registerCount wordRegisterCount simdRegisterCount bank) }

/-- Scans block after block. -/
def scanBlocks (owners : Owners) : BlockScan :=
  f.blocks.zipIdx.foldl
    (scanBlock f wordRegisterCount simdRegisterCount requirements reuseFinalFloatLhs vectorMode
      owners)
    { registers := List.replicate f.nodes.length none
      liveAcrossCalls := List.replicate f.nodes.length []
      needsStackSlot := List.replicate f.nodes.length false
      banks := fun bank => Bank.full (registerCount wordRegisterCount simdRegisterCount bank) }

/-! ## Stack slots -/

/-- The values that a block uses but does not define. -/
def nonlocalUses (owners : Owners) (block : BasicBlock) (b : Nat) : List Value :=
  (block.instructions.flatMap (instructionUses f requirements) ++
      terminatorUses block.terminator).filter fun v =>
    v.valid ∧ ((owners.getD v.index none).map Prod.fst) ≠ some b

/-- The values that must live in a slot. -/
def collectRequiresStack (owners : Owners) : List Bool :=
  setFlags (List.replicate f.nodes.length false)
    (f.blocks.zipIdx.flatMap fun (block, b) => nonlocalUses f requirements owners block b)

/-- Stack slots by value, and the next free slot. -/
structure SlotState where
  stackIndices : List (Option Nat)
  nextSlot : Nat

/-- Gives a slot to a value. -/
def SlotState.reserve (s : SlotState) (v : Nat) (type : ValueType) : SlotState :=
  let reserved := reserveStackSlot type s.nextSlot
  ⟨s.stackIndices.set v (some reserved.1), reserved.2⟩

/-- The type of the node at an index. -/
def valueTypeAt (v : Nat) : ValueType := (f.nodes[v]?.map (·.type)).getD .word

/-- The slots of values that other blocks use. -/
def persistentSlots (requiresStack : List Bool) : SlotState :=
  (List.range f.nodes.length).foldl
    (fun s v => if requiresStack.getD v false then s.reserve v (valueTypeAt f v) else s)
    ⟨List.replicate f.nodes.length none, 0⟩

/-- One value of a block's own slots. -/
def localSlotStep (registers : List (Option Nat)) (needsStackSlot : List Bool) (s : SlotState)
    (v : Value) : SlotState :=
  if (s.stackIndices.getD v.index none).isSome then s
  else if registers.getD v.index none = none ∨ needsStackSlot.getD v.index false then
    s.reserve v.index (f.valueType v)
  else s

/-- The slots of a block's own values start behind the persistent ones. -/
def localSlots (registers : List (Option Nat)) (needsStackSlot : List Bool) (persistent : Nat)
    (state : List (Option Nat) × Nat) (block : BasicBlock) : List (Option Nat) × Nat :=
  let s := block.instructions.foldl (localSlotStep f registers needsStackSlot)
    ⟨state.1, persistent⟩
  (s.stackIndices, max state.2 s.nextSlot)

/-- The register allocator for control-flow graphs. -/
def allocateControlFlowRegisters : Except Status ControlFlowRegisterAllocation := do
  require (wordRegisterCount ≠ 0 ∧ simdRegisterCount ≠ 0)
    ⟨.invalidArgument, "control-flow allocation requires Word and SIMD registers", 0⟩
  let owners := assignOwners f
  let scan := scanBlocks f wordRegisterCount simdRegisterCount requirements reuseFinalFloatLhs
    vectorMode owners
  let requiresStack := collectRequiresStack f requirements owners
  let needsStackSlot := setFlags scan.needsStackSlot scan.liveAcrossCalls.flatten
  let persistent := persistentSlots f requiresStack
  let slots := f.blocks.foldl (localSlots f scan.registers needsStackSlot persistent.nextSlot)
    (persistent.stackIndices, persistent.nextSlot)
  pure
    { registerIndices := scan.registers
      ownerBlocks := owners.map fun owner => owner.map Prod.fst
      requiresStack := requiresStack
      stackIndices := slots.1
      stackSlots := slots.2
      liveAcrossCalls := scan.liveAcrossCalls }

end allocator

/-! ## Owners -/

section owners

variable {f : ControlFlowFunction}

/-- The positions of a value are the places at which a block lists it. -/
lemma mem_instructionPositions {v : Value} {b i : Nat} :
    (v, b, i) ∈ instructionPositions f ↔
      ∃ block, f.blocks[b]? = some block ∧ block.instructions[i]? = some v := by
  simp only [instructionPositions, List.mem_flatMap, List.mem_map, Prod.exists,
    List.mem_zipIdx_iff_getElem?, Prod.mk.injEq]
  constructor
  · rintro ⟨block, b', hblock, v', i', hv, rfl, rfl, rfl⟩
    exact ⟨block, hblock, hv⟩
  · rintro ⟨block, hblock, hv⟩
    exact ⟨block, b, hblock, v, i, hv, rfl, rfl, rfl⟩

/-- Recording positions one after another: each entry comes from the list, and every listed value
has an entry. -/
lemma foldl_set_owner (positions : List (Value × Nat × Nat)) (owners : Owners) {k : Nat}
    (hk : k < owners.length) :
    (∃ v b i, (v, b, i) ∈ positions ∧ v.index = k ∧
        (positions.foldl (fun owners (v, b, i) => owners.set v.index (some (b, i)))
          owners).getD k none = some (b, i)) ∨
      (∀ v b i, (v, b, i) ∈ positions → v.index ≠ k) ∧
        (positions.foldl (fun owners (v, b, i) => owners.set v.index (some (b, i)))
          owners).getD k none = owners.getD k none := by
  induction positions generalizing owners with
  | nil => exact .inr ⟨by simp, rfl⟩
  | cons position positions ih =>
      obtain ⟨v, b, i⟩ := position
      rw [List.foldl_cons]
      rcases ih (owners.set v.index (some (b, i))) (by simpa using hk) with
        ⟨v', b', i', hmem, hk', hget⟩ | ⟨hnone, hget⟩
      · exact .inl ⟨v', b', i', List.mem_cons_of_mem _ hmem, hk', hget⟩
      · by_cases hv : v.index = k
        · refine .inl ⟨v, b, i, by simp, hv, ?_⟩
          rw [hget, ← hv]
          simp [List.getD, hv, hk]
        · refine .inr ⟨fun v' b' i' hmem => ?_, ?_⟩
          · rcases List.mem_cons.mp hmem with heq | hmem
            · obtain ⟨rfl, rfl, rfl⟩ : v' = v ∧ b' = b ∧ i' = i := by simpa using heq
              exact hv
            · exact hnone v' b' i' hmem
          · rw [hget]
            simp [List.getD, List.getElem?_set_ne hv]

/-- The recorded owner of a value is its defining position. -/
lemma assignOwners_spec (h : f.Owned) {k b i : Nat} (hk : k < f.nodes.length) :
    (assignOwners f).getD k none = some (b, i) ↔ f.DefinedAt k b i := by
  obtain ⟨b₀, i₀, hdef⟩ := h.total hk
  have hentry : ∃ b' i', (assignOwners f).getD k none = some (b', i') ∧ f.DefinedAt k b' i' := by
    rcases foldl_set_owner (instructionPositions f) (List.replicate f.nodes.length none)
      (k := k) (by simpa using hk) with
      ⟨v, b', i', hmem, hv, hget⟩ | ⟨hnone, -⟩
    · obtain ⟨block, hblock, hi⟩ := mem_instructionPositions.mp hmem
      exact ⟨b', i', hget, block, v, hblock, hi, hv⟩
    · obtain ⟨block, v, hblock, hi, hv⟩ := hdef
      exact absurd hv (hnone v b₀ i₀ (mem_instructionPositions.mpr ⟨block, hblock, hi⟩))
  obtain ⟨b', i', hget, hdef'⟩ := hentry
  rw [hget]
  constructor
  · intro heq
    obtain ⟨rfl, rfl⟩ : b' = b ∧ i' = i := by simpa using heq
    exact hdef'
  · intro hdef
    obtain ⟨rfl, rfl⟩ := h.unique hdef' hdef
    rfl

/-- The block of an owner. -/
lemma ownerBlocks_getD (owners : Owners) (k : Nat) :
    (owners.map fun owner => owner.map Prod.fst).getD k none =
      (owners.getD k none).map Prod.fst := by
  simp only [List.getD, List.getElem?_map]
  cases owners[k]? <;> rfl

/-- The position of a value in a block is where it is defined there. -/
lemma localPosition_spec (h : f.Owned) {v : Value} {b i : Nat} :
    localPosition (assignOwners f) b v = some i ↔
      v.valid ∧ f.DefinedAt v.index b i := by
  unfold localPosition
  by_cases hv : v.valid
  · rw [if_pos hv]
    by_cases hk : v.index < f.nodes.length
    · cases howner : (assignOwners f).getD v.index none with
      | none =>
          obtain ⟨b₀, i₀, hdef⟩ := h.total hk
          have := (assignOwners_spec h hk).mpr hdef
          rw [howner] at this
          exact absurd this (by simp)
      | some owner =>
          obtain ⟨b', i'⟩ := owner
          have hdef' := (assignOwners_spec h hk).mp howner
          simp only
          split_ifs with hb
          · subst hb
            constructor
            · intro heq
              obtain rfl := Option.some.inj heq
              exact ⟨hv, hdef'⟩
            · rintro ⟨-, hdef⟩
              rw [(h.unique hdef' hdef).2]
          · constructor
            · intro heq
              exact absurd heq (by simp)
            · rintro ⟨-, hdef⟩
              exact absurd (h.unique hdef' hdef).1 hb
    · have hlength : (assignOwners f).length = f.nodes.length := by
        have : ∀ (positions : List (Value × Nat × Nat)) (owners : Owners),
            (positions.foldl (fun owners (v, b, i) => owners.set v.index (some (b, i)))
              owners).length = owners.length := by
          intro positions
          induction positions with
          | nil => simp
          | cons p positions ih => intro owners; simp [ih]
        rw [assignOwners, this, List.length_replicate]
      have hnone : (assignOwners f).getD v.index none = none := by
        simp [List.getD, List.getElem?_eq_none (show (assignOwners f).length ≤ v.index by omega)]
      rw [hnone]
      constructor
      · intro heq
        exact absurd heq (by simp)
      · rintro ⟨-, hdef⟩
        exact absurd (h.lt hdef) hk
  · rw [if_neg hv]
    simp [hv]

end owners

/-! ## Uses -/

section uses

variable (f : ControlFlowFunction) (requirements : StackMapRequirements)

/-- The values that an instruction reads or that its stack map recovers. -/
def instructionReads (v : Value) : List Value :=
  match (nodeOf f v).opcode with
  | .op o => operands f.toSideTables (nodeOf f v) o ++ requiredValues requirements (nodeOf f v) o
  | _ => []

/-- **Uses in a block**: value `k` is used at position `p` of block `b` when the instruction there
reads it or its stack map recovers it, or when the terminator, which stands behind the last
instruction, reads it. -/
def UsedInBlock (b k p : Nat) : Prop :=
  ∃ block, f.blocks[b]? = some block ∧ ∃ value : Value, value.valid ∧ value.index = k ∧
    ((∃ v, block.instructions[p]? = some v ∧ value ∈ instructionReads f requirements v) ∨
      p = block.instructions.length ∧ value ∈ terminatorUses block.terminator)

variable {f requirements}

/-- The allocator looks at what an instruction reads. -/
lemma instructionUses_eq_reads (v : Value) :
    instructionUses f requirements v = instructionReads f requirements v := by
  unfold instructionUses instructionReads
  split
  · rw [visitOperands_eq_operands]
  · rfl

/-- The arguments of an edge are used by the terminator. -/
lemma mem_terminatorUses_of_edge {terminator : ControlTerminator} {edge : ControlEdge}
    {argument : Value} (hedge : edge ∈ terminator.edges) (hmem : argument ∈ edge.arguments) :
    argument ∈ terminatorUses terminator := by
  cases terminator with
  | none => simp [ControlTerminator.edges] at hedge
  | ret value => simp [ControlTerminator.edges] at hedge
  | jump e =>
      obtain rfl : edge = e := by simpa [ControlTerminator.edges] using hedge
      exact hmem
  | branch condition trueEdge falseEdge =>
      simp only [ControlTerminator.edges, List.mem_cons, List.not_mem_nil, or_false] at hedge
      rcases hedge with rfl | rfl <;> simp [terminatorUses, hmem]

/-- Noting several uses raises the last use to them. -/
lemma foldl_noteLocalUse {owners : Owners} {b index : Nat} {lastUse : List Nat}
    {values : List Value} :
    values.foldl (noteLocalUse owners b index) lastUse =
      (values.filterMap (localPosition owners b)).foldl (raiseUse index) lastUse := by
  induction values generalizing lastUse with
  | nil => rfl
  | cons v values ih =>
      rw [List.foldl_cons, ih]
      cases hpos : localPosition owners b v with
      | none => simp [noteLocalUse, hpos]
      | some d => simp [noteLocalUse, hpos, raiseUse]

/-- The collection over a block's instructions is the general collection of last uses. -/
lemma foldl_noteInstruction {owners : Owners} {b : Nat} {block : BasicBlock} :
    block.instructions.zipIdx.foldl (noteInstruction f requirements owners b)
        (List.replicate block.instructions.length 0) =
      collectUses (block.instructions.map fun v =>
        (instructionUses f requirements v).filterMap (localPosition owners b)) := by
  unfold collectUses
  rw [List.zipIdx_map, List.foldl_map, List.length_map]
  congr 1
  funext lastUse instruction
  simp only [noteInstruction, collectStep, Prod.map, id, foldl_noteLocalUse]

/-- Noting the terminator's uses raises the last use to them. -/
lemma foldl_noteTerminatorUse {owners : Owners} {b position d : Nat} {lastUse : List Nat}
    {values : List Value} (hd : d < lastUse.length) :
    (values.foldl (noteTerminatorUse owners b position) lastUse).getD d 0 =
      if d ∈ values.filterMap (localPosition owners b) then position
      else lastUse.getD d 0 := by
  induction values generalizing lastUse with
  | nil => simp
  | cons v values ih =>
      rw [List.foldl_cons]
      cases hpos : localPosition owners b v with
      | none =>
          simp only [noteTerminatorUse, hpos, List.filterMap_cons_none hpos]
          exact ih hd
      | some e =>
          have hset : (lastUse.set e position).getD d 0 =
              if d = e then position else lastUse.getD d 0 := by
            by_cases hde : d = e
            · subst hde
              simp [List.getD, hd]
            · simp [List.getD, List.getElem?_set_ne (Ne.symm hde), hde]
          simp only [noteTerminatorUse, hpos]
          rw [ih (by simpa using hd), hset, List.filterMap_cons_some hpos]
          simp only [List.mem_cons]
          by_cases hde : d = e
          · simp [hde]
          · simp [hde]

/-- **Last uses of a block**: the entry of a position lies at or after it and after every use of
its value in the block. -/
lemma blockLastUses_spec (h : f.Owned) {b d k : Nat} {block : BasicBlock}
    (hblock : f.blocks[b]? = some block) (hk : f.DefinedAt k b d) :
    d ≤ (blockLastUses f requirements (assignOwners f) b block).getD d 0 ∧
      ∀ p, UsedInBlock f requirements b k p →
        p ≤ (blockLastUses f requirements (assignOwners f) b block).getD d 0 := by
  have hd : d < block.instructions.length := by
    obtain ⟨block', v, hblock', hv, -⟩ := hk
    obtain rfl := Option.some.inj (hblock.symm.trans hblock')
    exact (List.getElem?_eq_some_iff.mp hv).1
  set uses := block.instructions.map fun v =>
    (instructionUses f requirements v).filterMap (localPosition (assignOwners f) b) with huses
  have hlength : uses.length = block.instructions.length := by simp [huses]
  obtain ⟨hdefinition, huse, -, hlt⟩ := collectUses_spec uses (v := d) (by omega)
  have hget : (blockLastUses f requirements (assignOwners f) b block).getD d 0 =
      if d ∈ (terminatorUses block.terminator).filterMap (localPosition (assignOwners f) b) then
        block.instructions.length
      else (collectUses uses).getD d 0 := by
    rw [blockLastUses, foldl_noteInstruction, foldl_noteTerminatorUse (by simpa using hd)]
  rw [hget]
  refine ⟨by split_ifs <;> omega, ?_⟩
  rintro p ⟨block', hblock', value, hvalid, rfl, hused⟩
  obtain rfl := Option.some.inj (hblock.symm.trans hblock')
  have hposition : localPosition (assignOwners f) b value = some d :=
    (localPosition_spec h).mpr ⟨hvalid, hk⟩
  rcases hused with ⟨v, hv, hreads⟩ | ⟨rfl, hterm⟩
  · have hp : p < block.instructions.length := (List.getElem?_eq_some_iff.mp hv).1
    have hmem : d ∈ uses.getD p [] := by
      simp only [huses, List.getD, List.getElem?_map, hv, Option.map_some, Option.getD_some]
      refine List.mem_filterMap.mpr ⟨value, ?_, hposition⟩
      rwa [instructionUses_eq_reads]
    have := huse p hmem
    split_ifs <;> omega
  · rw [if_pos (List.mem_filterMap.mpr ⟨value, hterm, hposition⟩)]

end uses

/-! ## The scan of a block -/

section scan

variable (f : ControlFlowFunction) (requirements : StackMapRequirements)
  (reuseFinalFloatLhs : Bool) (vectorMode : VectorRegisterMode)

/-- The bank of the value at a position of a block. -/
def positionBank (block : BasicBlock) (p : Nat) : Option RegisterBank :=
  block.instructions[p]?.bind fun v => registerBank (f.valueType v) vectorMode

/-- The registers of one bank, by position of a block. -/
def positionRegister (block : BasicBlock) (registers : List (Option Nat)) (bank : RegisterBank)
    (p : Nat) : Option Nat :=
  if positionBank f vectorMode block p = some bank then registerAt registers block p else none

/-- The result at position `j` may take over the register of position `i`: it is a floating-point
operation whose left operand is the value of position `i`. -/
def ReusesLhs (block : BasicBlock) (i j : Nat) : Prop :=
  reuseFinalFloatLhs = true ∧ ∃ u v, block.instructions[i]? = some u ∧
    block.instructions[j]? = some v ∧ canReuseFloatLhs (nodeOf f v).opcode ∧
    (nodeOf f v).lhs.index = u.index

variable {f requirements reuseFinalFloatLhs vectorMode} {wordRegisterCount simdRegisterCount : Nat}

/-- The invariant of the scan of block `b` after the positions below `i`, started from the
registers `base`. -/
structure BlockInv (f : ControlFlowFunction) (reuseFinalFloatLhs : Bool)
    (vectorMode : VectorRegisterMode) (wordRegisterCount simdRegisterCount : Nat)
    (block : BasicBlock) (lastUse : Nat → Nat) (base : BlockScan) (i : Nat) (s : BlockScan) :
    Prop where
  length : s.registers.length = f.nodes.length
  bank : ∀ bank, (s.banks bank).Inv lastUse (ReusesLhs f reuseFinalFloatLhs block)
    (registerCount wordRegisterCount simdRegisterCount bank) i
    (positionRegister f vectorMode block s.registers bank)
  frame : ∀ k, (∀ p < i, block.instructions[p]?.map Value.index ≠ some k) →
    s.registers.getD k none = base.registers.getD k none
  live : ∀ v ∈ s.liveAcrossCalls.flatten,
    v ∈ base.liveAcrossCalls.flatten ∨ v ∈ block.instructions
  flags : s.needsStackSlot.length = f.nodes.length

/-- Setting flags keeps their number. -/
lemma length_setFlags {flags : List Bool} {values : List Value} :
    (setFlags flags values).length = flags.length := by
  unfold setFlags
  induction values generalizing flags with
  | nil => rfl
  | cons v values ih => rw [List.foldl_cons, ih, List.length_set]

/-- Recording live values and requested slots changes neither registers nor banks. -/
lemma BlockInv.note {block : BasicBlock} {lastUse : Nat → Nat} {base s : BlockScan} {i : Nat}
    {v : Value} (h : BlockInv f reuseFinalFloatLhs vectorMode wordRegisterCount simdRegisterCount
      block lastUse base i s) :
    BlockInv f reuseFinalFloatLhs vectorMode wordRegisterCount simdRegisterCount block lastUse base
      i (requireLiveStack f block lastUse (noteLiveAcross f block lastUse s v i) v i) := by
  have hnote : BlockInv f reuseFinalFloatLhs vectorMode wordRegisterCount simdRegisterCount block
      lastUse base i (noteLiveAcross f block lastUse s v i) := by
    unfold noteLiveAcross
    split_ifs
    · refine ⟨h.length, h.bank, h.frame, fun w hw => ?_, h.flags⟩
      obtain ⟨values, hvalues, hw⟩ := List.mem_flatten.mp hw
      obtain ⟨j, hj⟩ := List.mem_iff_getElem?.mp hvalues
      rw [List.getElem?_modify] at hj
      obtain ⟨old, hold, rfl⟩ := Option.map_eq_some_iff.mp hj
      have hmem : old ∈ s.liveAcrossCalls := List.mem_of_getElem? hold
      split_ifs at hw
      · rcases List.mem_append.mp hw with hw | hw
        · exact h.live w (List.mem_flatten.mpr ⟨old, hmem, hw⟩)
        · obtain ⟨p, -, hp⟩ := List.mem_filterMap.mp hw
          exact .inr (List.mem_of_getElem? hp)
      · exact h.live w (List.mem_flatten.mpr ⟨old, hmem, hw⟩)
    · exact h
  unfold requireLiveStack
  split_ifs
  · exact ⟨hnote.length, hnote.bank, hnote.frame, hnote.live,
      length_setFlags.trans hnote.flags⟩
  · exact hnote

/-- Two positions of a block define different values. -/
lemma index_inj (h : f.Owned) {b p q : Nat} {block : BasicBlock} {u v : Value}
    (hblock : f.blocks[b]? = some block) (hu : block.instructions[p]? = some u)
    (hv : block.instructions[q]? = some v) (heq : u.index = v.index) : p = q :=
  (h.unique ⟨block, u, hblock, hu, rfl⟩ ⟨block, v, hblock, hv, heq.symm⟩).2

/-- The registers of a block's positions after the value at position `i` received register
`r`. -/
lemma positionRegister_set (h : f.Owned) {b i r : Nat} {block : BasicBlock} {v : Value}
    {registers : List (Option Nat)} {bank : RegisterBank}
    (hblock : f.blocks[b]? = some block) (hv : block.instructions[i]? = some v)
    (hlength : registers.length = f.nodes.length)
    (hbank : registerBank (f.valueType v) vectorMode = some bank) :
    positionRegister f vectorMode block (registers.set v.index (some r)) bank =
        Function.update (positionRegister f vectorMode block registers bank) i (some r) ∧
      ∀ other, other ≠ bank →
        positionRegister f vectorMode block (registers.set v.index (some r)) other =
          positionRegister f vectorMode block registers other := by
  have hlt : v.index < registers.length := by
    rw [hlength]
    exact (h.valid hblock hv).2
  have hsame : registerAt (registers.set v.index (some r)) block i = some r := by
    simp [registerAt, hv, List.getD, hlt]
  have hother : ∀ p, p ≠ i →
      registerAt (registers.set v.index (some r)) block p = registerAt registers block p := by
    intro p hp
    unfold registerAt
    cases hu : block.instructions[p]? with
    | none => rfl
    | some u =>
        have hne : v.index ≠ u.index := fun heq => hp (index_inj h hblock hv hu heq).symm
        simp [List.getD, List.getElem?_set_ne hne]
  have hbanki : positionBank f vectorMode block i = some bank := by
    simp [positionBank, hv, hbank]
  constructor
  · funext p
    by_cases hp : p = i
    · subst hp
      simp [positionRegister, hbanki, hsame]
    · simp [positionRegister, hp, hother p hp]
  · intro other hne
    funext p
    by_cases hp : p = i
    · subst hp
      simp [positionRegister, hbanki, Ne.symm hne]
    · simp [positionRegister, hother p hp]

/-- An instruction that receives a register: the other bank skips the position. -/
lemma BlockInv.assign (h : f.Owned) {b i r : Nat} {block : BasicBlock} {v : Value}
    {lastUse : Nat → Nat} {base s : BlockScan} {bank : RegisterBank} {bank' : Bank}
    (hblock : f.blocks[b]? = some block) (hv : block.instructions[i]? = some v)
    (hbank : registerBank (f.valueType v) vectorMode = some bank)
    (hs : BlockInv f reuseFinalFloatLhs vectorMode wordRegisterCount simdRegisterCount block lastUse
      base i s)
    (hb : bank'.Inv lastUse (ReusesLhs f reuseFinalFloatLhs block)
      (registerCount wordRegisterCount simdRegisterCount bank) (i + 1)
      (Function.update (positionRegister f vectorMode block s.registers bank) i (some r))) :
    BlockInv f reuseFinalFloatLhs vectorMode wordRegisterCount simdRegisterCount block lastUse base
      (i + 1) (s.assign bank bank' v r) := by
  obtain ⟨hsame, hother⟩ := positionRegister_set (r := r) h hblock hv hs.length hbank
  refine ⟨by simpa [BlockScan.assign] using hs.length, fun other => ?_, fun k hk => ?_, hs.live,
    hs.flags⟩
  · by_cases heq : other = bank
    · subst heq
      simp only [BlockScan.assign, Function.update_self, hsame]
      exact hb
    · simp only [BlockScan.assign, Function.update_of_ne heq, hother other heq]
      exact (hs.bank other).skip
  · have hne : v.index ≠ k := by
      intro heq
      exact hk i (by omega) (by simp [hv, heq])
    simp only [BlockScan.assign, List.getD, List.getElem?_set_ne hne]
    exact hs.frame k fun p hp => hk p (by omega)

/-- The register choice keeps the invariant. -/
lemma BlockInv.choose (h : f.Owned) {b i : Nat} {block : BasicBlock} {v : Value}
    {lastUse : Nat → Nat} {base s : BlockScan}
    (hblock : f.blocks[b]? = some block) (hv : block.instructions[i]? = some v)
    (hs : BlockInv f reuseFinalFloatLhs vectorMode wordRegisterCount simdRegisterCount block lastUse
      base i s) :
    BlockInv f reuseFinalFloatLhs vectorMode wordRegisterCount simdRegisterCount block lastUse base
      (i + 1)
      (chooseRegister f reuseFinalFloatLhs vectorMode (assignOwners f) b block lastUse s v i) := by
  cases hbank : registerBank (f.valueType v) vectorMode with
  | none =>
      simp only [chooseRegister, hbank]
      exact ⟨hs.length, fun bank => (hs.bank bank).skip, fun k hk =>
        hs.frame k fun p hp => hk p (by omega), hs.live, hs.flags⟩
  | some bank =>
      have hexpire : (s.banks bank).expire lastUse (registerAt s.registers block) i =
          (s.banks bank).expire lastUse (positionRegister f vectorMode block s.registers bank) i := by
        refine Bank.expire_congr fun p hp => ?_
        obtain ⟨r, hr⟩ := (hs.bank bank).active_reg p hp
        unfold positionRegister at hr ⊢
        split_ifs at hr ⊢
        rfl
      simp only [chooseRegister, hbank, hexpire]
      obtain ⟨hb, -⟩ := (hs.bank bank).expire
      generalize (s.banks bank).expire lastUse
        (positionRegister f vectorMode block s.registers bank) i = expired at hb ⊢
      cases hreuse : reusableLhs f reuseFinalFloatLhs (assignOwners f) b block lastUse s.registers
        expired v i with
      | some candidate =>
          obtain ⟨position, r⟩ := candidate
          simp only [reusableLhs] at hreuse
          split_ifs at hreuse with hflag
          cases hposition : localPosition (assignOwners f) b (nodeOf f v).lhs with
          | none => simp [hposition] at hreuse
          | some d =>
              simp only [hposition] at hreuse
              split_ifs at hreuse with hactive
              obtain ⟨r', hr', heq⟩ := Option.map_eq_some_iff.mp hreuse
              obtain ⟨rfl, rfl⟩ : d = position ∧ r' = r := by simpa using heq
              obtain ⟨-, block', u, hblock', hu, hlhs⟩ := (localPosition_spec h).mp hposition
              obtain rfl := Option.some.inj (hblock.symm.trans hblock')
              have hreg : positionRegister f vectorMode block s.registers bank d = some r' := by
                obtain ⟨r'', hr''⟩ := hb.active_reg d hactive.1
                unfold positionRegister at hr'' ⊢
                split_ifs at hr'' ⊢
                exact hr'
              exact hs.assign h hblock hv hbank (hb.reuse hactive.1 hreg hactive.2
                ⟨hflag.1, u, v, hu, hv, hflag.2, hlhs.symm⟩)
      | none =>
          cases hfree : expired.free with
          | cons r rest => exact hs.assign h hblock hv hbank (hb.take hfree)
          | nil =>
              refine ⟨hs.length, fun other => ?_, fun k hk =>
                hs.frame k fun p hp => hk p (by omega), hs.live, hs.flags⟩
              by_cases heq : other = bank
              · subst heq
                simpa using hb.skip
              · simpa [heq] using (hs.bank other).skip

/-- **Step lemma** of the scan of a block. -/
lemma BlockInv.step (h : f.Owned) {b i : Nat} {block : BasicBlock} {v : Value}
    {lastUse : Nat → Nat} {base s : BlockScan}
    (hblock : f.blocks[b]? = some block) (hv : block.instructions[i]? = some v)
    (hs : BlockInv f reuseFinalFloatLhs vectorMode wordRegisterCount simdRegisterCount block lastUse
      base i s) :
    BlockInv f reuseFinalFloatLhs vectorMode wordRegisterCount simdRegisterCount block lastUse base
      (i + 1)
      (blockScanStep f reuseFinalFloatLhs vectorMode (assignOwners f) b block lastUse s (v, i)) :=
  hs.note.choose h hblock hv

/-- The scan of a block starts with every register free. -/
lemma BlockInv.start {block : BasicBlock} {lastUse : Nat → Nat} {s : BlockScan}
    (hlength : s.registers.length = f.nodes.length)
    (hflags : s.needsStackSlot.length = f.nodes.length)
    (hpending : ∀ v ∈ block.instructions, s.registers.getD v.index none = none) :
    BlockInv f reuseFinalFloatLhs vectorMode wordRegisterCount simdRegisterCount block lastUse s 0
      { s with
        banks := fun bank =>
          Bank.full (registerCount wordRegisterCount simdRegisterCount bank) } := by
  refine ⟨hlength, fun bank => ?_, fun k _ => rfl, fun v hv => .inl hv, hflags⟩
  have hnone : positionRegister f vectorMode block s.registers bank = fun _ => none := by
    funext p
    unfold positionRegister registerAt
    cases hv : block.instructions[p]? with
    | none => simp
    | some v => simpa using fun _ => hpending v (List.mem_of_getElem? hv)
  dsimp only
  rw [hnone]
  exact Bank.Inv.start

/-- The scan of a whole block. -/
lemma scanBlock_inv (h : f.Owned) {b : Nat} {block : BasicBlock} {s : BlockScan}
    (hblock : f.blocks[b]? = some block) (hlength : s.registers.length = f.nodes.length)
    (hflags : s.needsStackSlot.length = f.nodes.length)
    (hpending : ∀ v ∈ block.instructions, s.registers.getD v.index none = none) :
    BlockInv f reuseFinalFloatLhs vectorMode wordRegisterCount simdRegisterCount block
      (fun p => (blockLastUses f requirements (assignOwners f) b block).getD p 0) s
      block.instructions.length
      (scanBlock f wordRegisterCount simdRegisterCount requirements reuseFinalFloatLhs vectorMode
        (assignOwners f) s (block, b)) := by
  simp only [scanBlock]
  set lastUse := fun p => (blockLastUses f requirements (assignOwners f) b block).getD p 0
  exact foldl_zipIdx_invariant
    (BlockInv f reuseFinalFloatLhs vectorMode wordRegisterCount simdRegisterCount block lastUse s)
    (BlockInv.start hlength hflags hpending) fun i v t hv ht => ht.step h hblock hv

/-- The invariant of the scan over the blocks below `b`. -/
structure BlocksInv (f : ControlFlowFunction) (requirements : StackMapRequirements)
    (reuseFinalFloatLhs : Bool) (vectorMode : VectorRegisterMode)
    (wordRegisterCount simdRegisterCount b : Nat) (s : BlockScan) : Prop where
  length : s.registers.length = f.nodes.length
  pending : ∀ b' block, b ≤ b' → f.blocks[b']? = some block →
    ∀ v ∈ block.instructions, s.registers.getD v.index none = none
  done : ∀ b' block, b' < b → f.blocks[b']? = some block → ∀ bank, ∃ state : Bank,
    state.Inv (fun p => (blockLastUses f requirements (assignOwners f) b' block).getD p 0)
      (ReusesLhs f reuseFinalFloatLhs block)
      (registerCount wordRegisterCount simdRegisterCount bank) block.instructions.length
      (positionRegister f vectorMode block s.registers bank)
  live : ∀ v ∈ s.liveAcrossCalls.flatten, ∃ block ∈ f.blocks, v ∈ block.instructions
  flags : s.needsStackSlot.length = f.nodes.length

/-- Values of different blocks are different. -/
lemma index_ne (h : f.Owned) {b b' : Nat} {block block' : BasicBlock} {u v : Value}
    (hne : b' ≠ b) (hblock : f.blocks[b]? = some block) (hblock' : f.blocks[b']? = some block')
    (hv : v ∈ block'.instructions) (p : Nat) (hp : block.instructions[p]? = some u) :
    u.index ≠ v.index := by
  obtain ⟨q, hq⟩ := List.mem_iff_getElem?.mp hv
  intro heq
  exact hne (h.unique ⟨block', v, hblock', hq, rfl⟩ ⟨block, u, hblock, hp, heq⟩).1

/-- Scanning a block keeps the registers of the other blocks' values. -/
lemma scanBlock_frame (h : f.Owned) {b b' : Nat} {block block' : BasicBlock} {s t : BlockScan}
    {lastUse : Nat → Nat} (hne : b' ≠ b) (hblock : f.blocks[b]? = some block)
    (hblock' : f.blocks[b']? = some block')
    (hinv : BlockInv f reuseFinalFloatLhs vectorMode wordRegisterCount simdRegisterCount block
      lastUse s block.instructions.length t) :
    ∀ v ∈ block'.instructions, t.registers.getD v.index none = s.registers.getD v.index none := by
  intro v hv
  refine hinv.frame v.index fun p _ hp => ?_
  obtain ⟨u, hu, hindex⟩ := Option.map_eq_some_iff.mp hp
  exact index_ne h hne hblock hblock' hv p hu hindex

/-- Scanning one block more keeps the invariant. -/
lemma BlocksInv.step (h : f.Owned) {b : Nat} {block : BasicBlock} {s : BlockScan}
    (hblock : f.blocks[b]? = some block)
    (hs : BlocksInv f requirements reuseFinalFloatLhs vectorMode wordRegisterCount simdRegisterCount
      b s) :
    BlocksInv f requirements reuseFinalFloatLhs vectorMode wordRegisterCount simdRegisterCount
      (b + 1)
      (scanBlock f wordRegisterCount simdRegisterCount requirements reuseFinalFloatLhs vectorMode
        (assignOwners f) s (block, b)) := by
  set t := scanBlock f wordRegisterCount simdRegisterCount requirements reuseFinalFloatLhs
    vectorMode (assignOwners f) s (block, b)
  have hinv : BlockInv f reuseFinalFloatLhs vectorMode wordRegisterCount simdRegisterCount block
      (fun p => (blockLastUses f requirements (assignOwners f) b block).getD p 0) s
      block.instructions.length t :=
    scanBlock_inv h hblock hs.length hs.flags (hs.pending b block le_rfl hblock)
  refine ⟨hinv.length, fun b' block' hb' hblock' v hv => ?_, fun b' block' hb' hblock' bank => ?_,
    fun v hv => ?_, hinv.flags⟩
  · rw [scanBlock_frame h (by omega) hblock hblock' hinv v hv]
    exact hs.pending b' block' (by omega) hblock' v hv
  · by_cases heq : b' = b
    · subst heq
      obtain rfl := Option.some.inj (hblock.symm.trans hblock')
      exact ⟨_, hinv.bank bank⟩
    · obtain ⟨state, hstate⟩ := hs.done b' block' (by omega) hblock' bank
      have hsame : positionRegister f vectorMode block' t.registers bank =
          positionRegister f vectorMode block' s.registers bank := by
        funext p
        unfold positionRegister registerAt
        cases hv : block'.instructions[p]? with
        | none => rfl
        | some v =>
            simp only [Option.bind_some]
            rw [scanBlock_frame h heq hblock hblock' hinv v (List.mem_of_getElem? hv)]
      exact ⟨state, hsame ▸ hstate⟩
  · rcases hinv.live v hv with hlive | hmem
    · exact hs.live v hlive
    · exact ⟨block, List.mem_of_getElem? hblock, hmem⟩

/-- **Run lemma** of the scan over all blocks. -/
lemma scanBlocks_inv (h : f.Owned) :
    BlocksInv f requirements reuseFinalFloatLhs vectorMode wordRegisterCount simdRegisterCount
      f.blocks.length
      (scanBlocks f wordRegisterCount simdRegisterCount requirements reuseFinalFloatLhs vectorMode
        (assignOwners f)) := by
  refine foldl_zipIdx_invariant
    (BlocksInv f requirements reuseFinalFloatLhs vectorMode wordRegisterCount simdRegisterCount)
    ⟨by simp, fun b' block _ _ v _ => ?_, by simp, by simp, by simp⟩
    fun b block s hblock hs => hs.step h hblock
  simp only [List.getD, List.getElem?_replicate]
  split_ifs <;> rfl

end scan

/-! ## Stack slots -/

section slots

variable {f : ControlFlowFunction} {requirements : StackMapRequirements}

/-- A flag is set when it was or when its value is listed. -/
lemma setFlags_getD {flags : List Bool} {values : List Value} {k : Nat} (hk : k < flags.length) :
    (setFlags flags values).getD k false = true ↔
      flags.getD k false = true ∨ ∃ v ∈ values, v.index = k := by
  unfold setFlags
  induction values generalizing flags with
  | nil => simp
  | cons v values ih =>
      rw [List.foldl_cons, ih (by simpa using hk)]
      by_cases hv : v.index = k
      · simp [List.getD, hv, hk]
      · simp [List.getD, List.getElem?_set_ne hv, hv]

/-- The stack flag of a value says that some block uses it without defining it. -/
lemma collectRequiresStack_spec (h : f.Owned) {k b i : Nat} (hk : f.DefinedAt k b i) :
    (collectRequiresStack f requirements (assignOwners f)).getD k false = true ↔
      ∃ b' p, b' ≠ b ∧ UsedInBlock f requirements b' k p := by
  have hlt := h.lt hk
  have howner := (assignOwners_spec h hlt).mpr hk
  rw [collectRequiresStack, setFlags_getD (by simpa using hlt)]
  have hstart : (List.replicate f.nodes.length false).getD k false = false := by
    simp [List.getD, hlt]
  simp only [hstart, Bool.false_eq_true, false_or, List.mem_flatMap, Prod.exists,
    List.mem_zipIdx_iff_getElem?]
  constructor
  · rintro ⟨v, ⟨block, b', hblock, hv⟩, rfl⟩
    obtain ⟨hmem, hcond⟩ := List.mem_filter.mp hv
    simp only [howner, Option.map_some, ne_eq, Option.some.injEq, Bool.decide_and,
      Bool.and_eq_true, decide_eq_true_eq] at hcond
    rcases List.mem_append.mp hmem with hmem | hmem
    · obtain ⟨w, hw, hmem⟩ := List.mem_flatMap.mp hmem
      obtain ⟨p, hp⟩ := List.mem_iff_getElem?.mp hw
      rw [instructionUses_eq_reads] at hmem
      exact ⟨b', p, Ne.symm hcond.2, block, hblock, v, hcond.1, rfl, .inl ⟨w, hp, hmem⟩⟩
    · exact ⟨b', _, Ne.symm hcond.2, block, hblock, v, hcond.1, rfl, .inr ⟨rfl, hmem⟩⟩
  · rintro ⟨b', p, hne, block, hblock, v, hvalid, rfl, hused⟩
    refine ⟨v, ⟨block, b', hblock, List.mem_filter.mpr ⟨?_, ?_⟩⟩, rfl⟩
    · rcases hused with ⟨w, hw, hmem⟩ | ⟨-, hmem⟩
      · refine List.mem_append.mpr (.inl (List.mem_flatMap.mpr ⟨w, List.mem_of_getElem? hw, ?_⟩))
        rwa [instructionUses_eq_reads]
      · exact List.mem_append.mpr (.inr hmem)
    · simp only [howner, Option.map_some, ne_eq, Option.some.injEq, Bool.decide_and,
        Bool.and_eq_true, decide_eq_true_eq]
      exact ⟨hvalid, Ne.symm hne⟩

/-- The slot of a value. -/
def slotOf (stack : List (Option Nat)) (k : Nat) : Option Nat := stack.getD k none

/-- The width of a value's slot. -/
def slotWidth (f : ControlFlowFunction) (k : Nat) : Nat := stackSlotWidth (valueTypeAt f k)

/-- A reservation changes the slot of its value only. -/
lemma slotOf_reserve {s : SlotState} {v k : Nat} {type : ValueType}
    (hv : v < s.stackIndices.length) :
    slotOf (s.reserve v type).stackIndices k =
      if k = v then some (reserveStackSlot type s.nextSlot).1 else slotOf s.stackIndices k := by
  by_cases hkv : k = v
  · subst hkv
    simp [slotOf, SlotState.reserve, List.getD, hv]
  · simp [slotOf, SlotState.reserve, List.getD, List.getElem?_set_ne (Ne.symm hkv), hkv]

/-- Vector slots start at even numbers. -/
def EvenSlots (f : ControlFlowFunction) (stack : List (Option Nat)) : Prop :=
  ∀ k s, slotOf stack k = some s → isVectorValueType (valueTypeAt f k) → s % 2 = 0

/-- A reservation keeps the slots of vectors even. -/
lemma EvenSlots.reserve {s : SlotState} {v : Nat} (h : EvenSlots f s.stackIndices)
    (hv : v < s.stackIndices.length) :
    EvenSlots f (s.reserve v (valueTypeAt f v)).stackIndices := by
  intro k t ht hvec
  rw [slotOf_reserve hv] at ht
  split_ifs at ht with hkv
  · subst hkv
    obtain rfl := Option.some.inj ht
    exact (reserveStackSlot_spec _ _).2.2 hvec
  · exact h k t ht hvec

/-- The persistent slots: the values marked by `requiresStack` have slots, packed from zero. -/
structure PersistentInv (f : ControlFlowFunction) (requiresStack : List Bool) (i : Nat)
    (s : SlotState) : Prop where
  length : s.stackIndices.length = f.nodes.length
  packed : Packed (slotWidth f) 0 s.nextSlot (slotOf s.stackIndices)
  even : EvenSlots f s.stackIndices
  marked : ∀ k t, slotOf s.stackIndices k = some t → requiresStack.getD k false = true
  given : ∀ k < i, requiresStack.getD k false = true → (slotOf s.stackIndices k).isSome

/-- The slots of the values that must live in one. -/
lemma persistentSlots_inv (requiresStack : List Bool) :
    PersistentInv f requiresStack f.nodes.length (persistentSlots f requiresStack) := by
  have hempty : ∀ k, slotOf (List.replicate f.nodes.length none) k = none := by
    intro k
    simp only [slotOf, List.getD, List.getElem?_replicate]
    split_ifs <;> rfl
  refine foldl_range_invariant (PersistentInv f requiresStack) ⟨by simp, ?_, ?_, ?_, by simp⟩ ?_
  · rw [funext hempty]
    exact Packed.empty
  · intro k s hs
    simp [hempty] at hs
  · intro k s hs
    simp [hempty] at hs
  · intro i s hi h
    have hlt : i < s.stackIndices.length := by rw [h.length]; exact hi
    split_ifs with hreq
    · obtain ⟨hge, hnext, -⟩ := reserveStackSlot_spec (valueTypeAt f i) s.nextSlot
      have hslot : slotOf (s.reserve i (valueTypeAt f i)).stackIndices =
          Function.update (slotOf s.stackIndices) i
            (some (reserveStackSlot (valueTypeAt f i) s.nextSlot).1) := by
        funext k
        rw [slotOf_reserve hlt]
        by_cases hki : k = i
        · simp [hki]
        · simp [hki]
      refine ⟨by simpa [SlotState.reserve] using h.length, ?_, h.even.reserve hlt,
        fun k t ht => ?_, fun k hk hreqk => ?_⟩
      · rw [hslot]
        exact h.packed.assign (Nat.zero_le _) hge hnext.ge
      · rw [slotOf_reserve hlt] at ht
        split_ifs at ht with hki
        · rwa [hki]
        · exact h.marked k t ht
      · rw [slotOf_reserve hlt]
        split_ifs with hki
        · rfl
        · exact h.given k (by omega) hreqk
    · refine ⟨h.length, h.packed, h.even, h.marked, fun k hk hreqk => ?_⟩
      by_cases hki : k = i
      · exact absurd (hki ▸ hreqk) hreq
      · exact h.given k (by omega) hreqk

/-- A value needs a slot of its own. -/
abbrev NeedsSlot (registers : List (Option Nat)) (needsStackSlot : List Bool) (k : Nat) : Prop :=
  registers.getD k none = none ∨ needsStackSlot.getD k false = true

/-- The slots of a block after the values `seen`, started from the slots `base`. -/
structure LocalInv (f : ControlFlowFunction) (registers : List (Option Nat))
    (needsStackSlot : List Bool) (persistent : Nat) (base : List (Option Nat)) (seen : List Value)
    (s : SlotState) : Prop where
  length : s.stackIndices.length = f.nodes.length
  above : persistent ≤ s.nextSlot
  kept : ∀ k t, slotOf base k = some t → slotOf s.stackIndices k = some t
  frame : ∀ k, (∀ v ∈ seen, v.index ≠ k) → slotOf s.stackIndices k = slotOf base k
  packed : Packed (slotWidth f) persistent s.nextSlot
    fun k => if slotOf base k = none then slotOf s.stackIndices k else none
  even : EvenSlots f s.stackIndices
  given : ∀ v ∈ seen, NeedsSlot registers needsStackSlot v.index →
    (slotOf s.stackIndices v.index).isSome

/-- The type of a value is the type of its node. -/
lemma valueType_eq_valueTypeAt {v : Value} (hv : v.valid) :
    f.valueType v = valueTypeAt f v.index := by
  simp [ControlFlowFunction.valueType, valueTypeAt, hv]

/-- One value more of a block keeps the invariant. -/
lemma LocalInv.step {registers : List (Option Nat)} {needsStackSlot : List Bool}
    {persistent : Nat} {base : List (Option Nat)} {seen : List Value} {s : SlotState} {v : Value}
    (hv : f.validValue v)
    (h : LocalInv f registers needsStackSlot persistent base seen s) :
    LocalInv f registers needsStackSlot persistent base (seen ++ [v])
      (localSlotStep f registers needsStackSlot s v) := by
  have hlt : v.index < s.stackIndices.length := by rw [h.length]; exact hv.2
  unfold localSlotStep
  by_cases hsome : (slotOf s.stackIndices v.index).isSome
  · rw [if_pos (show (s.stackIndices.getD v.index none).isSome = true from hsome)]
    refine ⟨h.length, h.above, h.kept, fun k hk => h.frame k fun w hw => hk w (by simp [hw]),
      h.packed, h.even, fun w hw hneeds => ?_⟩
    rcases List.mem_append.mp hw with hw | hw
    · exact h.given w hw hneeds
    · rw [List.mem_singleton.mp hw]
      exact hsome
  · rw [if_neg (show ¬(s.stackIndices.getD v.index none).isSome = true from hsome)]
    have hnone : slotOf s.stackIndices v.index = none := by simpa using hsome
    have hbase : slotOf base v.index = none := by
      cases hb : slotOf base v.index with
      | none => rfl
      | some t => rw [h.kept _ t hb] at hnone; exact absurd hnone (by simp)
    by_cases hneed : NeedsSlot registers needsStackSlot v.index
    · rw [if_pos hneed, valueType_eq_valueTypeAt hv.1]
      obtain ⟨hge, hnext, -⟩ := reserveStackSlot_spec (valueTypeAt f v.index) s.nextSlot
      refine ⟨by simpa [SlotState.reserve] using h.length, ?_, fun k t ht => ?_, fun k hk => ?_, ?_,
        h.even.reserve hlt, fun w hw hneeds => ?_⟩
      · have := h.above
        simp only [SlotState.reserve]
        omega
      · rw [slotOf_reserve hlt]
        split_ifs with hkv
        · rw [hkv, hbase] at ht
          exact absurd ht (by simp)
        · exact h.kept k t ht
      · rw [slotOf_reserve hlt, if_neg fun hkv => hk v (by simp) hkv.symm]
        exact h.frame k fun w hw => hk w (by simp [hw])
      · have hslot : (fun k => if slotOf base k = none then
              slotOf (s.reserve v.index (valueTypeAt f v.index)).stackIndices k else none) =
            Function.update (fun k => if slotOf base k = none then slotOf s.stackIndices k else none)
              v.index (some (reserveStackSlot (valueTypeAt f v.index) s.nextSlot).1) := by
          funext k
          rw [slotOf_reserve hlt]
          by_cases hkv : k = v.index
          · simp [hkv, hbase]
          · simp [hkv]
        rw [hslot]
        exact h.packed.assign h.above hge hnext.ge
      · rw [slotOf_reserve hlt]
        split_ifs with hwv
        · rfl
        · rcases List.mem_append.mp hw with hw | hw
          · exact h.given w hw hneeds
          · exact absurd (by rw [List.mem_singleton.mp hw]) hwv
    · rw [if_neg hneed]
      refine ⟨h.length, h.above, h.kept, fun k hk => h.frame k fun w hw => hk w (by simp [hw]),
        h.packed, h.even, fun w hw hneeds => ?_⟩
      rcases List.mem_append.mp hw with hw | hw
      · exact h.given w hw hneeds
      · rw [List.mem_singleton.mp hw] at hneeds
        exact absurd hneeds hneed

/-- All values of a block keep the invariant. -/
lemma LocalInv.run {registers : List (Option Nat)} {needsStackSlot : List Bool}
    {persistent : Nat} {base : List (Option Nat)} {values seen : List Value} {s : SlotState}
    (hvalues : ∀ v ∈ values, f.validValue v)
    (h : LocalInv f registers needsStackSlot persistent base seen s) :
    LocalInv f registers needsStackSlot persistent base (seen ++ values)
      (values.foldl (localSlotStep f registers needsStackSlot) s) := by
  induction values generalizing seen s with
  | nil => simpa using h
  | cons v values ih =>
      rw [List.foldl_cons, List.append_cons]
      exact ih (fun w hw => hvalues w (by simp [hw])) (h.step (hvalues v (by simp)))

/-- The slots after the blocks below `b`, behind the persistent slots `base`. -/
structure SlotsInv (f : ControlFlowFunction) (registers : List (Option Nat))
    (needsStackSlot : List Bool) (persistent : Nat) (base : List (Option Nat)) (b : Nat)
    (state : List (Option Nat) × Nat) : Prop where
  length : state.1.length = f.nodes.length
  above : persistent ≤ state.2
  kept : ∀ k t, slotOf base k = some t → slotOf state.1 k = some t
  pending : ∀ k b' i, b ≤ b' → f.DefinedAt k b' i → slotOf state.1 k = slotOf base k
  packed : ∀ b' < b, ∃ slot, Packed (slotWidth f) persistent state.2 slot ∧
    ∀ k i t, f.DefinedAt k b' i → slotOf base k = none → slotOf state.1 k = some t →
      slot k = some t
  even : EvenSlots f state.1
  given : ∀ k b' i, b' < b → f.DefinedAt k b' i → NeedsSlot registers needsStackSlot k →
    (slotOf state.1 k).isSome

/-- Only values of the function have slots. -/
lemma SlotsInv.lt {registers : List (Option Nat)} {needsStackSlot : List Bool}
    {persistent b k s : Nat} {base : List (Option Nat)} {state : List (Option Nat) × Nat}
    (hs : SlotsInv f registers needsStackSlot persistent base b state)
    (hk : slotOf state.1 k = some s) : k < f.nodes.length := by
  by_contra hge
  have hlength : state.1.length ≤ k := by rw [hs.length]; omega
  simp [slotOf, List.getD, List.getElem?_eq_none hlength] at hk

/-- One block more keeps the invariant. -/
lemma SlotsInv.step (h : f.Owned) {registers : List (Option Nat)} {needsStackSlot : List Bool}
    {persistent b : Nat} {base : List (Option Nat)} {state : List (Option Nat) × Nat}
    {block : BasicBlock} (hblock : f.blocks[b]? = some block)
    (hs : SlotsInv f registers needsStackSlot persistent base b state) :
    SlotsInv f registers needsStackSlot persistent base (b + 1)
      (localSlots f registers needsStackSlot persistent state block) := by
  have hmem : ∀ v ∈ block.instructions, ∃ i, f.DefinedAt v.index b i := by
    intro v hv
    obtain ⟨i, hi⟩ := List.mem_iff_getElem?.mp hv
    exact ⟨i, block, v, hblock, hi, rfl⟩
  have hvalid : ∀ v ∈ block.instructions, f.validValue v := by
    intro v hv
    obtain ⟨i, hi⟩ := List.mem_iff_getElem?.mp hv
    exact h.valid hblock hi
  have hstart : LocalInv f registers needsStackSlot persistent state.1 []
      ⟨state.1, persistent⟩ := by
    refine ⟨hs.length, le_rfl, fun k t ht => ht, fun k _ => rfl, ?_, hs.even, by simp⟩
    have hnone : (fun k => if slotOf state.1 k = none then slotOf state.1 k else none) =
        fun _ => none := by
      funext k
      split_ifs with hk
      · exact hk
      · rfl
    rw [hnone]
    exact Packed.empty
  have hrun := hstart.run hvalid
  rw [List.nil_append] at hrun
  simp only [localSlots]
  set s := block.instructions.foldl (localSlotStep f registers needsStackSlot)
    ⟨state.1, persistent⟩
  have hother : ∀ k b' i, b' ≠ b → f.DefinedAt k b' i →
      slotOf s.stackIndices k = slotOf state.1 k := by
    intro k b' i hne hdef
    refine hrun.frame k fun v hv heq => ?_
    obtain ⟨i', hdef'⟩ := hmem v hv
    exact hne (h.unique hdef (heq ▸ hdef')).1
  refine ⟨hrun.length, hs.above.trans (le_max_left _ _),
    fun k t ht => hrun.kept k t (hs.kept k t ht), fun k b' i hb' hdef => ?_, fun b' hb' => ?_,
    hrun.even, fun k b' i hb' hdef hneed => ?_⟩
  · rw [hother k b' i (by omega) hdef]
    exact hs.pending k b' i (by omega) hdef
  · by_cases heq : b' = b
    · subst heq
      refine ⟨_, hrun.packed.mono (le_max_right _ _), fun k i t hdef hbase ht => ?_⟩
      simp [hs.pending k b' i le_rfl hdef, hbase, ht]
    · obtain ⟨slot, hpacked, hslot⟩ := hs.packed b' (by omega)
      refine ⟨slot, hpacked.mono (le_max_left _ _), fun k i t hdef hbase ht => ?_⟩
      rw [hother k b' i heq hdef] at ht
      exact hslot k i t hdef hbase ht
  · by_cases heq : b' = b
    · subst heq
      obtain ⟨block', v, hblock', hv, rfl⟩ := hdef
      obtain rfl := Option.some.inj (hblock.symm.trans hblock')
      exact hrun.given v (List.mem_of_getElem? hv) hneed
    · rw [hother k b' i heq hdef]
      exact hs.given k b' i (by omega) hdef hneed

/-- The slots of the values local to a block. -/
lemma localSlots_inv (h : f.Owned) {registers : List (Option Nat)} {needsStackSlot : List Bool}
    {persistent : SlotState} (hlength : persistent.stackIndices.length = f.nodes.length)
    (heven : EvenSlots f persistent.stackIndices) :
    SlotsInv f registers needsStackSlot persistent.nextSlot persistent.stackIndices
      f.blocks.length
      (f.blocks.foldl (localSlots f registers needsStackSlot persistent.nextSlot)
        (persistent.stackIndices, persistent.nextSlot)) := by
  have hzip : f.blocks.foldl (localSlots f registers needsStackSlot persistent.nextSlot)
        (persistent.stackIndices, persistent.nextSlot) =
      f.blocks.zipIdx.foldl (fun state indexed =>
        localSlots f registers needsStackSlot persistent.nextSlot state indexed.1)
        (persistent.stackIndices, persistent.nextSlot) := by
    conv_lhs => rw [← List.zipIdx_map_fst 0 f.blocks, List.foldl_map]
  rw [hzip]
  exact foldl_zipIdx_invariant
    (SlotsInv f registers needsStackSlot persistent.nextSlot persistent.stackIndices)
    ⟨hlength, le_rfl, fun k t ht => ht, fun k b' i _ _ => rfl, by simp, heven, by simp⟩
    fun b block state hblock hs => hs.step h hblock

/-- Slots of distinct values do not overlap when one of them is persistent or both belong to one
block. -/
lemma SlotsInv.disjoint (h : f.Owned) {registers : List (Option Nat)} {needsStackSlot : List Bool}
    {limit : Nat} {base : List (Option Nat)} {state : List (Option Nat) × Nat}
    (hbase : Packed (slotWidth f) 0 limit (slotOf base))
    (hs : SlotsInv f registers needsStackSlot limit base f.blocks.length state)
    {k l s t : Nat} (hne : k ≠ l) (hk : slotOf state.1 k = some s) (hl : slotOf state.1 l = some t)
    (hcase : (slotOf base k).isSome ∨ (slotOf base l).isSome ∨
      ∃ b i j, f.DefinedAt k b i ∧ f.DefinedAt l b j) :
    s + slotWidth f k ≤ t ∨ t + slotWidth f l ≤ s := by
  have hlow : ∀ k s t, slotOf base k = some t → slotOf state.1 k = some s →
      slotOf base k = some s := by
    intro k s t hb hk
    rw [hb, ← hk, hs.kept k t hb]
  have hhigh : ∀ k s, slotOf base k = none → slotOf state.1 k = some s → limit ≤ s := by
    intro k s hb hk
    obtain ⟨b, i, hdef⟩ := h.total (hs.lt hk)
    obtain ⟨slot, hpacked, hslot⟩ := hs.packed b hdef.block_lt
    exact hpacked.above k s (hslot k i s hdef hb hk)
  cases hbk : slotOf base k with
  | some s' =>
      have hbk := hlow k s s' hbk hk
      cases hbl : slotOf base l with
      | some t' => exact hbase.disjoint k l s t hne hbk (hlow l t t' hbl hl)
      | none => exact .inl ((hbase.below k s hbk).trans (hhigh l t hbl hl))
  | none =>
      cases hbl : slotOf base l with
      | some t' => exact .inr ((hbase.below l t (hlow l t t' hbl hl)).trans (hhigh k s hbk hk))
      | none =>
          obtain hcase | hcase | ⟨b, i, j, hdefk, hdefl⟩ := hcase
          · simp [hbk] at hcase
          · simp [hbl] at hcase
          · obtain ⟨slot, hpacked, hslot⟩ := hs.packed b hdefk.block_lt
            exact hpacked.disjoint k l s t hne (hslot k i s hdefk hbk hk)
              (hslot l j t hdefl hbl hl)

/-- Every slot lies below the reported number of slots. -/
lemma SlotsInv.bounded (h : f.Owned) {registers : List (Option Nat)} {needsStackSlot : List Bool}
    {limit : Nat} {base : List (Option Nat)} {state : List (Option Nat) × Nat}
    (hbase : Packed (slotWidth f) 0 limit (slotOf base))
    (hs : SlotsInv f registers needsStackSlot limit base f.blocks.length state)
    {k s : Nat} (hk : slotOf state.1 k = some s) : s + slotWidth f k ≤ state.2 := by
  cases hb : slotOf base k with
  | some t =>
      have := hs.kept k t hb
      obtain rfl := Option.some.inj (this.symm.trans hk)
      exact (hbase.below k t hb).trans hs.above
  | none =>
      obtain ⟨b, i, hdef⟩ := h.total (hs.lt hk)
      obtain ⟨slot, hpacked, hslot⟩ := hs.packed b hdef.block_lt
      exact hpacked.below k s (hslot k i s hdef hb hk)

end slots

/-! ## Soundness -/

/-- **Live in a block**: value `k` of block `b` is live at position `q`, from its definition to
its last use in the block. -/
def LiveAt (f : ControlFlowFunction) (requirements : StackMapRequirements) (b k q : Nat) : Prop :=
  ∃ i, f.DefinedAt k b i ∧ i ≤ q ∧ (q = i ∨ ∃ p, q ≤ p ∧ UsedInBlock f requirements b k p)

/-- The physical bank of value `k`. -/
def valueBank (f : ControlFlowFunction) (vectorMode : VectorRegisterMode) (k : Nat) :
    Option RegisterBank :=
  registerBank (valueTypeAt f k) vectorMode

/-- **The sanctioned sharing**: value `l`, a floating-point result at position `q` of block `b`,
takes over the register of its left operand `k`, which is not used later in the block. -/
def TakesOver (f : ControlFlowFunction) (requirements : StackMapRequirements)
    (reuseFinalFloatLhs : Bool) (b k l q : Nat) : Prop :=
  reuseFinalFloatLhs = true ∧ f.DefinedAt l b q ∧
    (∃ n, f.nodes[l]? = some n ∧ canReuseFloatLhs n.opcode = true ∧ n.lhs.index = k) ∧
    ∀ p, UsedInBlock f requirements b k p → p ≤ q

namespace ControlFlowRegisterAllocation

/-- The register of a value. -/
def register (a : ControlFlowRegisterAllocation) (k : Nat) : Option Nat :=
  a.registerIndices.getD k none

/-- The slot of a value. -/
def slot (a : ControlFlowRegisterAllocation) (k : Nat) : Option Nat := slotOf a.stackIndices k

/-- **Sound allocations** of a control-flow graph. -/
structure Sound (f : ControlFlowFunction) (requirements : StackMapRequirements)
    (reuseFinalFloatLhs : Bool) (vectorMode : VectorRegisterMode)
    (a : ControlFlowRegisterAllocation) : Prop where
  /-- Every value has a register or a stack slot. -/
  located : ∀ k < f.nodes.length, (a.register k).isSome ∨ (a.slot k).isSome
  /-- At every point of a block, two live values of one bank have different registers, unless one
  takes over the register of the other. -/
  exclusive : ∀ b k l q r bank, k ≠ l → LiveAt f requirements b k q →
    LiveAt f requirements b l q → valueBank f vectorMode k = some bank →
    valueBank f vectorMode l = some bank → a.register k = some r → a.register l = some r →
    TakesOver f requirements reuseFinalFloatLhs b k l q ∨
      TakesOver f requirements reuseFinalFloatLhs b l k q
  /-- A value used outside its block has a slot that no other value's slot overlaps. -/
  persistent : ∀ k b i b' p, f.DefinedAt k b i → b' ≠ b → UsedInBlock f requirements b' k p →
    ∃ s, a.slot k = some s ∧ ∀ l t, l ≠ k → a.slot l = some t →
      s + slotWidth f k ≤ t ∨ t + slotWidth f l ≤ s
  /-- The slots of two values of one block do not overlap. -/
  localDisjoint : ∀ k l b i j s t, k ≠ l → f.DefinedAt k b i → f.DefinedAt l b j →
    a.slot k = some s → a.slot l = some t → s + slotWidth f k ≤ t ∨ t + slotWidth f l ≤ s
  /-- A vector's slot is an even-aligned pair. -/
  aligned : ∀ k s, a.slot k = some s → isVectorValueType (valueTypeAt f k) →
    s % 2 = 0 ∧ slotWidth f k = 2
  /-- All slots lie below the reported number of slots. -/
  bounded : ∀ k s, a.slot k = some s → s + slotWidth f k ≤ a.stackSlots
  /-- The recorded owner of a value is the block that defines it. -/
  owners : ∀ k < f.nodes.length, ∀ b,
    a.ownerBlocks.getD k none = some b ↔ ∃ i, f.DefinedAt k b i
  /-- A value listed as live across a call has a slot. -/
  acrossCalls : ∀ live ∈ a.liveAcrossCalls, ∀ v ∈ live, (a.slot v.index).isSome

end ControlFlowRegisterAllocation

section sound

variable {f : ControlFlowFunction} {requirements : StackMapRequirements}
  {reuseFinalFloatLhs : Bool} {vectorMode : VectorRegisterMode}
  {wordRegisterCount simdRegisterCount : Nat}

/-- The register of a value is the register of its position. -/
lemma positionRegister_eq (h : f.Owned) {k b i : Nat} {block : BasicBlock} {bank : RegisterBank}
    {registers : List (Option Nat)} (hblock : f.blocks[b]? = some block)
    (hdef : f.DefinedAt k b i) (hbank : valueBank f vectorMode k = some bank) :
    positionRegister f vectorMode block registers bank i = registers.getD k none := by
  obtain ⟨block', v, hblock', hv, rfl⟩ := hdef
  obtain rfl := Option.some.inj (hblock.symm.trans hblock')
  have hpos : positionBank f vectorMode block i = some bank := by
    rw [valueBank, ← valueType_eq_valueTypeAt (h.valid hblock hv).1] at hbank
    simp [positionBank, hv, hbank]
  simp [positionRegister, hpos, registerAt, hv]

/-- Of two values in one register, the later one takes over the register of the earlier one if
both are live. -/
lemma BlocksInv.takesOver (h : f.Owned) {s : BlockScan} {b k l i j q r : Nat} {bank : RegisterBank}
    (hs : BlocksInv f requirements reuseFinalFloatLhs vectorMode wordRegisterCount
      simdRegisterCount f.blocks.length s)
    (hk : f.DefinedAt k b i) (hl : f.DefinedAt l b j) (hij : i < j) (hjq : j ≤ q)
    (hlive : q = i ∨ ∃ p, q ≤ p ∧ UsedInBlock f requirements b k p)
    (hbk : valueBank f vectorMode k = some bank) (hbl : valueBank f vectorMode l = some bank)
    (hrk : s.registers.getD k none = some r) (hrl : s.registers.getD l none = some r) :
    TakesOver f requirements reuseFinalFloatLhs b k l q := by
  obtain ⟨block, v, hblock, hv, rfl⟩ := id hl
  obtain ⟨state, hstate⟩ := hs.done b block hl.block_lt hblock bank
  have hbound : ∀ p, UsedInBlock f requirements b k p →
      p ≤ (blockLastUses f requirements (assignOwners f) b block).getD i 0 :=
    (blockLastUses_spec h hblock hk).2
  have hsep := hstate.separated i j r hij
    ((positionRegister_eq h hblock hk hbk).trans hrk)
    ((positionRegister_eq h hblock hl hbl).trans hrl)
  obtain hqi | ⟨p, hqp, hused⟩ := hlive
  · omega
  · have hp := hbound p hused
    obtain hlt | ⟨hlast, hflag, u, v', hu, hv', hreuse, hlhs⟩ := hsep
    · omega
    · obtain rfl := Option.some.inj (hv.symm.trans hv')
      obtain rfl : q = j := by omega
      refine ⟨hflag, hl, ⟨nodeOf f v, ?_, hreuse, ?_⟩, fun p hp => hlast ▸ hbound p hp⟩
      · rw [nodeOf, List.getD, List.getElem?_eq_getElem (h.lt hl), Option.getD_some]
      · obtain ⟨block', u', hblock', hu', rfl⟩ := hk
        obtain rfl := Option.some.inj (hblock.symm.trans hblock')
        obtain rfl := Option.some.inj (hu.symm.trans hu')
        exact hlhs

/-- Two live values of one bank share a register only where one takes over the other's. -/
lemma BlocksInv.exclusive (h : f.Owned) {s : BlockScan} {b k l q r : Nat} {bank : RegisterBank}
    (hs : BlocksInv f requirements reuseFinalFloatLhs vectorMode wordRegisterCount
      simdRegisterCount f.blocks.length s)
    (hne : k ≠ l) (hk : LiveAt f requirements b k q) (hl : LiveAt f requirements b l q)
    (hbk : valueBank f vectorMode k = some bank) (hbl : valueBank f vectorMode l = some bank)
    (hrk : s.registers.getD k none = some r) (hrl : s.registers.getD l none = some r) :
    TakesOver f requirements reuseFinalFloatLhs b k l q ∨
      TakesOver f requirements reuseFinalFloatLhs b l k q := by
  obtain ⟨i, hdefk, hiq, hlivek⟩ := hk
  obtain ⟨j, hdefl, hjq, hlivel⟩ := hl
  rcases lt_trichotomy i j with hij | rfl | hji
  · exact .inl (hs.takesOver h hdefk hdefl hij hjq hlivek hbk hbl hrk hrl)
  · exact absurd (hdefk.inj hdefl) hne
  · exact .inr (hs.takesOver h hdefl hdefk hji hiq hlivel hbl hbk hrl hrk)

end sound

/-- What the allocator returns for a graph with unique definitions is sound. -/
lemma sound_of_allocateControlFlowRegisters {f : ControlFlowFunction}
    {wordRegisterCount simdRegisterCount : Nat} {requirements : StackMapRequirements}
    {reuseFinalFloatLhs : Bool} {vectorMode : VectorRegisterMode}
    {a : ControlFlowRegisterAllocation} (howned : f.Owned)
    (h : allocateControlFlowRegisters f wordRegisterCount simdRegisterCount requirements
      reuseFinalFloatLhs vectorMode = .ok a) :
    a.Sound f requirements reuseFinalFloatLhs vectorMode := by
  simp only [allocateControlFlowRegisters, require_bind_eq_ok, pure_eq_ok] at h
  obtain ⟨-, rfl⟩ := h
  have hscan : BlocksInv f requirements reuseFinalFloatLhs vectorMode wordRegisterCount
      simdRegisterCount f.blocks.length _ := scanBlocks_inv howned
  set scan := scanBlocks f wordRegisterCount simdRegisterCount requirements reuseFinalFloatLhs
    vectorMode (assignOwners f)
  set requiresStack := collectRequiresStack f requirements (assignOwners f) with hrequires
  set needsStackSlot := setFlags scan.needsStackSlot scan.liveAcrossCalls.flatten with hneeds
  have hbase := persistentSlots_inv (f := f) requiresStack
  set persistent := persistentSlots f requiresStack
  have hslots : SlotsInv f scan.registers needsStackSlot persistent.nextSlot
      persistent.stackIndices f.blocks.length _ :=
    localSlots_inv howned hbase.length hbase.even
  set slots := f.blocks.foldl (localSlots f scan.registers needsStackSlot persistent.nextSlot)
    (persistent.stackIndices, persistent.nextSlot)
  have hgiven : ∀ k < f.nodes.length, NeedsSlot scan.registers needsStackSlot k →
      (slotOf slots.1 k).isSome := by
    intro k hk hneed
    obtain ⟨b, i, hdef⟩ := howned.total hk
    exact hslots.given k b i hdef.block_lt hdef hneed
  constructor
  case located =>
    intro k hk
    by_cases hreg : scan.registers.getD k none = none
    · exact .inr (hgiven k hk (.inl hreg))
    · exact .inl (Option.isSome_iff_ne_none.mpr hreg)
  case exclusive =>
    intro b k l q r bank hne hk hl hbk hbl hrk hrl
    exact hscan.exclusive howned hne hk hl hbk hbl hrk hrl
  case persistent =>
    intro k b i b' p hdef hb hused
    have hflag : requiresStack.getD k false = true :=
      (collectRequiresStack_spec howned hdef).mpr ⟨b', p, hb, hused⟩
    obtain ⟨s, hs⟩ := Option.isSome_iff_exists.mp (hbase.given k (howned.lt hdef) hflag)
    refine ⟨s, hslots.kept k s hs, fun l t hne hl => ?_⟩
    exact hslots.disjoint howned hbase.packed hne.symm (hslots.kept k s hs) hl (.inl (by simp [hs]))
  case localDisjoint =>
    intro k l b i j s t hne hdefk hdefl hk hl
    exact hslots.disjoint howned hbase.packed hne hk hl (.inr (.inr ⟨b, i, j, hdefk, hdefl⟩))
  case aligned =>
    intro k s hs hvec
    exact ⟨hslots.even k s hs hvec, by simp only [slotWidth, stackSlotWidth, hvec, if_true]⟩
  case bounded => exact fun k s hs => hslots.bounded howned hbase.packed hs
  case owners =>
    intro k hk b
    show ((assignOwners f).map fun owner => owner.map Prod.fst).getD k none = some b ↔ _
    rw [ownerBlocks_getD]
    constructor
    · intro howner
      obtain ⟨⟨b', i⟩, hentry, rfl⟩ := Option.map_eq_some_iff.mp howner
      exact ⟨i, (assignOwners_spec howned hk).mp hentry⟩
    · rintro ⟨i, hdef⟩
      rw [(assignOwners_spec howned hk).mpr hdef]
      rfl
  case acrossCalls =>
    intro live hlive v hv
    have hmem : v ∈ scan.liveAcrossCalls.flatten := List.mem_flatten.mpr ⟨live, hlive, hv⟩
    obtain ⟨block, hblock, hvblock⟩ := hscan.live v hmem
    obtain ⟨b, hb⟩ := List.mem_iff_getElem?.mp hblock
    obtain ⟨i, hi⟩ := List.mem_iff_getElem?.mp hvblock
    have hlt := (howned.valid hb hi).2
    refine hgiven v.index hlt (.inr ?_)
    rw [hneeds, setFlags_getD (by rw [hscan.flags]; exact hlt)]
    exact .inr ⟨v, hmem, rfl⟩

/-- The stack flag of an allocated value says that another block uses it. -/
lemma requiresStack_iff {f : ControlFlowFunction} {wordRegisterCount simdRegisterCount : Nat}
    {requirements : StackMapRequirements} {reuseFinalFloatLhs : Bool}
    {vectorMode : VectorRegisterMode} {a : ControlFlowRegisterAllocation} (howned : f.Owned)
    (h : allocateControlFlowRegisters f wordRegisterCount simdRegisterCount requirements
      reuseFinalFloatLhs vectorMode = .ok a) {k b i : Nat} (hk : f.DefinedAt k b i) :
    a.requiresStack.getD k false = true ↔ ∃ b' p, b' ≠ b ∧ UsedInBlock f requirements b' k p := by
  simp only [allocateControlFlowRegisters, require_bind_eq_ok, pure_eq_ok] at h
  obtain ⟨-, rfl⟩ := h
  exact collectRequiresStack_spec howned hk

/-- **Register allocation of control-flow graphs is sound**, whatever the register counts, the
stack-map requirements and the flags. -/
theorem allocateControlFlowRegisters_sound (f : ControlFlowFunction)
    (wordRegisterCount simdRegisterCount : Nat) (requirements : StackMapRequirements)
    (reuseFinalFloatLhs : Bool) (vectorMode : VectorRegisterMode)
    (a : ControlFlowRegisterAllocation) (verified : f.verify = .ok ())
    (h : allocateControlFlowRegisters f wordRegisterCount simdRegisterCount requirements
      reuseFinalFloatLhs vectorMode = .ok a) :
    a.Sound f requirements reuseFinalFloatLhs vectorMode :=
  sound_of_allocateControlFlowRegisters (ControlFlowFunction.verify_owned verified) h

/-- A loop that counts a word down and sums a float; values cross blocks, the sum takes over the
register of the block parameter, and the stack map of the exit recovers it. -/
def loopSample : ControlFlowFunction where
  parameterTypes := [.word, .float64]
  entryBlock := .ofIndex 0
  nodes :=
    [{ opcode := .parameter },
     { opcode := .parameter, type := .float64, immediate := 1 },
     { opcode := .op .constant, immediate := 1 },
     { opcode := .blockParameter },
     { opcode := .blockParameter, type := .float64, immediate := 1 },
     { opcode := .op (.binary .floatAdd), type := .float64, lhs := .ofIndex 4, rhs := .ofIndex 1 },
     { opcode := .op (.binary .subtract), lhs := .ofIndex 3, rhs := .ofIndex 2 },
     { opcode := .op .safepoint, immediate := 5 }]
  blocks :=
    [{ parameters := [.ofIndex 0, .ofIndex 1]
       instructions := [.ofIndex 0, .ofIndex 1, .ofIndex 2]
       terminator := .jump ⟨.ofIndex 1, [.ofIndex 0, .ofIndex 1]⟩ },
     { parameters := [.ofIndex 3, .ofIndex 4]
       instructions := [.ofIndex 3, .ofIndex 4, .ofIndex 5, .ofIndex 6]
       terminator := .branch (.ofIndex 6) ⟨.ofIndex 1, [.ofIndex 6, .ofIndex 5]⟩ ⟨.ofIndex 2, []⟩ },
     { instructions := [.ofIndex 7]
       terminator := .ret (.ofIndex 3) }]

/-- What the allocator returns for the loop with one register in each bank. -/
def loopSampleAllocation : ControlFlowRegisterAllocation where
  registerIndices := [some 0, some 0, none, some 0, some 0, some 0, none, some 0]
  ownerBlocks := [some 0, some 0, some 0, some 1, some 1, some 1, some 1, some 2]
  requiresStack := [false, true, true, true, false, true, false, false]
  stackIndices := [none, some 0, some 1, some 2, none, some 3, some 4, none]
  stackSlots := 5
  liveAcrossCalls := [[], [], [], [], [], [], [], []]

/-- The allocation of a verified loop is the expected one and sound. -/
theorem allocateControlFlowRegisters_sound_loopSample :
    loopSample.verify = .ok () ∧
      allocateControlFlowRegisters loopSample 1 1 [⟨5, [.ofIndex 5]⟩] true .sharedWithFloat64 =
        .ok loopSampleAllocation ∧
      loopSampleAllocation.Sound loopSample [⟨5, [.ofIndex 5]⟩] true .sharedWithFloat64 := by
  have hverified : loopSample.verify = .ok () := by decide
  have hallocated : allocateControlFlowRegisters loopSample 1 1 [⟨5, [.ofIndex 5]⟩] true
      .sharedWithFloat64 = .ok loopSampleAllocation := by rfl
  exact ⟨hverified, hallocated,
    allocateControlFlowRegisters_sound _ _ _ _ _ _ _ hverified hallocated⟩

end UniJit.Jit
