import UniJit.Jit.AtomicFallback
import UniJit.Jit.EdgeMoves

/-!
# Edge copies through temporary slots

`copyEdgeArguments` is what the AArch64 code generator emits for a control edge. When the register
plan declines, it stores every argument into a temporary slot and then moves the temporaries to
the parameters: into a parameter's register, and into its slot when it has no register or another
block reads it. The temporaries lie behind the allocated slots, in an area of the frame that is as
large as the parameters of any one block.

Main result: `copyEdgeArguments_temporaries_deliver`. All arguments are read before a parameter is
written, so overlapping slots do no harm; a parameter that its block reads keeps its register to
itself, because it is live from its definition to behind the last parameter.
-/

namespace UniJit.Jit

open UniJit.Ir UniJit.Lib

/-- What the code of an edge consists of. A missing source register is the temporary of the
bank. -/
inductive EdgeInstruction
  | move (m : ControlFlowRegisterMove)
  | store (type : ValueType) (source slot : Option Nat)
  deriving DecidableEq, Repr

/-! ## The emitted code -/

section emission

variable (f : ControlFlowFunction) (allocation : ControlFlowRegisterAllocation)

/-- The register that holds a value in a block: `control_word_register` and its siblings, which
differ in the bank only. -/
def controlRegister (value : Value) (currentBlock : Nat) : Option Nat :=
  if sourceInRegister allocation currentBlock value then allocation.register value.index else none

/-- Loads a slot. -/
def loadSlot (type : ValueType) (destination slot : Option Nat) : EdgeInstruction :=
  .move ⟨.stack, slot, destination, type⟩

/-- The code that puts a value into a register, by default the temporary of the bank, and the
register: `load_control_word` and its siblings. -/
def loadControl (value : Value) (currentBlock : Nat) : List EdgeInstruction × Option Nat :=
  match controlRegister allocation value currentBlock with
  | some register => ([], some register)
  | none => ([loadSlot (f.valueType value) none (allocation.slot value.index)], none)

/-- The temporary slots of the arguments. -/
def temporarySlots : Nat → List Value → List Nat
  | _, [] => []
  | nextTemporary, argument :: rest =>
      let reserved := reserveStackSlot (f.valueType argument) nextTemporary
      reserved.1 :: temporarySlots reserved.2 rest

/-- Store an argument into its temporary. -/
def saveArgument (currentBlock : Nat) (argument : Value) (temporary : Nat) :
    List EdgeInstruction :=
  let (loads, source) := loadControl f allocation argument currentBlock
  loads ++ [.store (f.valueType argument) source (some temporary)]

/-- Load a parameter from its temporary, and store it if its slot is read. -/
def deliverParameter (targetBlock : Nat) (parameter : Value) (temporary : Nat) :
    List EdgeInstruction :=
  let type := f.valueType parameter
  let allocated := controlRegister allocation parameter targetBlock
  loadSlot type allocated (some temporary) ::
    if allocated = none ∨ allocation.requiresStack.getD parameter.index false then
      [.store type allocated (allocation.slot parameter.index)]
    else []

/-- The temporary path: all arguments are read before a parameter is written. -/
def copyThroughTemporaries (edge : ControlEdge) (currentBlock temporaryBase : Nat) :
    List EdgeInstruction :=
  let target := f.blocks.getD edge.target.index {}
  let temporaries := temporarySlots f temporaryBase edge.arguments
  (edge.arguments.zip temporaries).flatMap
      (fun (argument, temporary) => saveArgument f allocation currentBlock argument temporary) ++
    (target.parameters.zip temporaries).flatMap
      (fun (parameter, temporary) =>
        deliverParameter f allocation edge.target.index parameter temporary)

/-- The stores behind the moves of the register path. -/
def storeParameters (edge : ControlEdge) : List EdgeInstruction :=
  let target := f.blocks.getD edge.target.index {}
  (target.parameters.filter fun parameter =>
      allocation.requiresStack.getD parameter.index false).map fun parameter =>
    .store (f.valueType parameter) (controlRegister allocation parameter edge.target.index)
      (allocation.slot parameter.index)

/-- The code of an edge; `none` if the planning loop needs more than `fuel` iterations. -/
def copyEdgeArguments (fuel : Nat) (edge : ControlEdge) (currentBlock temporaryBase : Nat) :
    Option (List EdgeInstruction) :=
  (planControlFlowEdgeMoves fuel f edge allocation currentBlock).map fun moves =>
    if moves.usesRegisters then
      moves.moves.map .move ++ storeParameters f allocation edge
    else
      copyThroughTemporaries f allocation edge currentBlock temporaryBase

end emission

/-! ## The frame -/

section frame

variable (f : ControlFlowFunction)

/-- The slots of a frame: allocated values and temporaries, then the function's frame slots, the
context, the arguments of calls, the return address and the result of an atomic fallback. -/
structure ControlFlowFrame where
  frameSlotBase : Nat
  contextSlot : Nat
  callArgumentBase : Nat
  returnAddressSlot : Nat
  atomicResultSlot : Nat
  totalSlots : Nat
  deriving DecidableEq, Repr

/-- The operations that need the execution context. -/
def isContextOperation : ControlOpcode → Bool
  | .op .safepoint | .op .guardWordNonzero | .op .guardFloatNonzero => true
  | .op (.memory _) | .op (.atomic _) => true
  | .op .loadObject | .op .storeObject | .op .fastCall | .op .loadPatchCell => true
  | _ => false

/-- An atomic operation that calls a helper where the processor has no instruction for it. -/
def isAtomicFallback (useLseAtomics : Bool) : ControlOpcode → Bool
  | .op (.atomic .load) | .op (.atomic .store) => false
  | .op (.atomic _) => !useLseAtomics
  | _ => false

/-- The number of arguments with which a node calls out, if it does. -/
def calledArguments (useLseAtomics : Bool) (node : ControlNode) : Option Nat :=
  if node.opcode = .op .call ∨ node.opcode = .op .fastCall then some node.argumentCount.toNat
  else if isAtomicFallback useLseAtomics node.opcode then some kAtomicFallbackArgumentCount
  else none

/-- The next free slot behind the temporaries of a block's parameters. -/
def reserveParameters (nextSlot : Nat) (parameters : List Value) : Nat :=
  parameters.foldl (fun next parameter => (reserveStackSlot (f.valueType parameter) next).2)
    nextSlot

/-- The allocated slots and the temporaries of the block that needs most. -/
def spillSlots (stackSlots : Nat) : Nat :=
  f.blocks.foldl (fun slots block => max slots (reserveParameters f stackSlots block.parameters))
    stackSlots

/-- The frame of a control-flow function. -/
def controlFlowFrame (useLseAtomics : Bool) (stackSlots : Nat) : ControlFlowFrame :=
  let hasContextOperations := f.nodes.any fun node => isContextOperation node.opcode
  let calls := f.nodes.filterMap (calledArguments useLseAtomics)
  let hasAtomicFallback := f.nodes.any fun node => isAtomicFallback useLseAtomics node.opcode
  let frameSlotBase := spillSlots f stackSlots
  let contextSlot := frameSlotBase + f.frameSlots.length
  let callArgumentBase := contextSlot + hasContextOperations.toNat
  let returnAddressSlot := callArgumentBase + calls.foldl max 0
  let atomicResultSlot := returnAddressSlot + (!calls.isEmpty).toNat
  ⟨frameSlotBase, contextSlot, callArgumentBase, returnAddressSlot, atomicResultSlot,
    atomicResultSlot + hasAtomicFallback.toNat⟩

/-- The largest frame the back end addresses. -/
def ControlFlowFrame.kMaximumStackSize : Nat := 4080

/-- The size of a frame in bytes, a multiple of 16; frames that direct offsets do not reach are
refused. -/
def ControlFlowFrame.stackSize (frame : ControlFlowFrame) : Except Status Nat := do
  let stackSize := (frame.totalSlots * 8 + 15) / 16 * 16
  require (stackSize ≤ kMaximumStackSize)
    ⟨.resourceExhausted, "AArch64 CFG spill frame exceeds the backend limit", 0⟩
  pure stackSize

end frame

/-! ## The machine -/

namespace EdgeMachine

/-- The value of a SIMD register or of the temporary. -/
def readSimd (s : EdgeMachine) : Option Nat → Vector128
  | some index => s.simd index
  | none => s.simdTemporary

/-- Reads a word register, or the temporary. -/
def readWord (s : EdgeMachine) : Option Nat → Word
  | some index => s.word index
  | none => s.wordTemporary

/-- A vector store scales its offset by the vector size: an odd slot is rounded down. -/
def storeVector (s : EdgeMachine) (slot : Nat) (v : Vector128) : EdgeMachine :=
  { s with
    stack := Function.update (Function.update s.stack (slot / 2 * 2) (low v)) (slot / 2 * 2 + 1)
      (low (v >>> 64)) }

/-- Writes a slot. -/
def storeWord (s : EdgeMachine) (slot : Nat) (w : Word) : EdgeMachine :=
  { s with stack := Function.update s.stack slot w }

/-- Store the value of a type from a register. -/
def store (s : EdgeMachine) (type : ValueType) (source : Option Nat) (slot : Nat) : EdgeMachine :=
  if isVectorValueType type then s.storeVector slot (s.readSimd source)
  else if type = .float64 then s.storeWord slot (low (s.readSimd source))
  else s.storeWord slot (s.readWord source)

/-- One instruction of an edge; `none` if the code has no slot for it. -/
def executeInstruction (s : EdgeMachine) : EdgeInstruction → Option EdgeMachine
  | .move m => s.execute m
  | .store type source slot => slot.map (s.store type source)

/-- Runs the instructions of an edge. -/
def runInstructions (s : EdgeMachine) (code : List EdgeInstruction) : Option EdgeMachine :=
  code.foldlM executeInstruction s

end EdgeMachine

/-! ## One instruction -/

section instructions

variable {s : EdgeMachine} {type : ValueType}

/-- The location of a register, by default of the temporary of the bank. -/
def registerLocation (type : ValueType) : Option Nat → MoveLocation
  | some index => .register (physicalBank type) index
  | none => .temporary (physicalBank type)

/-- Two parts run one after the other. -/
lemma runInstructions_append (first second : List EdgeInstruction) :
    s.runInstructions (first ++ second) =
      (s.runInstructions first).bind fun t => t.runInstructions second := by
  unfold EdgeMachine.runInstructions
  rw [List.foldlM_append]
  rfl

/-- Instructions run one by one. -/
lemma runInstructions_cons (instruction : EdgeInstruction) (rest : List EdgeInstruction) :
    s.runInstructions (instruction :: rest) =
      (s.executeInstruction instruction).bind fun t => t.runInstructions rest := rfl

/-- A store leaves the registers alone. -/
lemma contents_store_register (source : Option Nat) (slot : Nat) (bank : RegisterBank)
    (index : Nat) :
    (s.store type source slot).contents (.register bank index) =
      s.contents (.register bank index) := by
  unfold EdgeMachine.store
  split_ifs <;> cases bank <;> rfl

/-- A store writes the slots of its value only. -/
lemma stack_store_of_outside {source : Option Nat} {slot q : Nat}
    (heven : isVectorValueType type = true → slot % 2 = 0)
    (hq : q < slot ∨ slot + stackSlotWidth type ≤ q) :
    (s.store type source slot).stack q = s.stack q := by
  unfold EdgeMachine.store
  by_cases hvec : isVectorValueType type = true
  · have hround : slot / 2 * 2 = slot := by have := heven hvec; omega
    simp only [stackSlotWidth, hvec, if_true] at hq
    simp only [hvec, if_true, EdgeMachine.storeVector, hround]
    rw [Function.update_of_ne (by omega), Function.update_of_ne (by omega)]
  · simp only [stackSlotWidth, hvec] at hq
    have hne : q ≠ slot := by
      intro heq
      simp [heq] at hq
    rw [if_neg hvec]
    split_ifs <;> exact Function.update_of_ne hne _ _

/-- A stored value is read back. -/
lemma slotValue_store {source : Option Nat} {slot : Nat}
    (heven : isVectorValueType type = true → slot % 2 = 0) :
    (s.store type source slot).slotValue type slot =
      typeView type (s.contents (registerLocation type source)) := by
  unfold EdgeMachine.store EdgeMachine.slotValue typeView
  by_cases hvec : isVectorValueType type = true
  · have hround : slot / 2 * 2 = slot := by have := heven hvec; omega
    have hcontents : s.contents (registerLocation type source) = s.readSimd source := by
      unfold registerLocation
      rw [physicalBank_vector hvec]
      cases source <;> rfl
    simp only [hvec, if_true, EdgeMachine.storeVector, hround, hcontents]
    rw [Function.update_self, Function.update_of_ne (by omega), Function.update_self]
    unfold EdgeMachine.low
    ext i hi
    simp only [BitVec.getElem_append, BitVec.getElem_setWidth, BitVec.getLsbD_ushiftRight]
    split_ifs with hlow
    · exact BitVec.getLsbD_eq_getElem _
    · rw [show 64 + (i - 64) = i by omega]
      exact BitVec.getLsbD_eq_getElem _
  · by_cases hfloat : type = .float64
    · have hcontents : s.contents (registerLocation type source) = s.readSimd source := by
        unfold registerLocation
        rw [physicalBank, if_pos (.inl hfloat)]
        cases source <;> rfl
      simp only [if_neg hvec, if_pos hfloat, EdgeMachine.storeWord, Function.update_self, hcontents]
    · have hcontents : s.contents (registerLocation type source) =
          (s.readWord source).setWidth 128 := by
        unfold registerLocation
        rw [physicalBank, if_neg (not_or.mpr ⟨hfloat, hvec⟩)]
        cases source <;> rfl
      simp only [if_neg hvec, if_neg hfloat, EdgeMachine.storeWord, Function.update_self, hcontents,
        low_setWidth]

/-- A slot's value depends on its own words. -/
lemma slotValue_congr {s' : EdgeMachine} {slot : Nat}
    (h : ∀ q, slot ≤ q → q < slot + stackSlotWidth type → s'.stack q = s.stack q) :
    s'.slotValue type slot = s.slotValue type slot := by
  unfold EdgeMachine.slotValue
  by_cases hvec : isVectorValueType type = true
  · simp only [stackSlotWidth, hvec, if_true] at h
    simp only [hvec, if_true]
    rw [h slot le_rfl (by omega), h (slot + 1) (by omega) (by omega)]
  · rw [if_neg hvec, if_neg hvec]
    rw [h slot le_rfl (by simp only [stackSlotWidth, if_neg hvec]; omega)]

/-- A load fills its register with the value of the slot. -/
lemma executeInstruction_loadSlot (s : EdgeMachine) (type : ValueType) (destination : Option Nat)
    {slot : Nat}
    (heven : isVectorValueType type = true → slot % 2 = 0) :
    ∃ s', s.executeInstruction (loadSlot type destination (some slot)) = some s' ∧
      s'.stack = s.stack ∧
      s'.contents = Function.update s.contents (registerLocation type destination)
        (s.slotValue type slot) := by
  obtain ⟨s', hs', hstack, hcontents⟩ := execute_eq s ⟨.stack, some slot, destination, type⟩
    (by simp)
  refine ⟨s', hs', hstack, ?_⟩
  rw [hcontents, slotValue_eq s type slot heven]
  cases destination <;> rfl

end instructions

/-! ## Reading all arguments -/

section save

variable {f : ControlFlowFunction} {allocation : ControlFlowRegisterAllocation}
  {currentBlock : Nat} {s : EdgeMachine}

/-- Allocated vector slots are even. -/
def AlignedSlots (f : ControlFlowFunction) (allocation : ControlFlowRegisterAllocation) : Prop :=
  ∀ (v : Value) slot, v.valid → allocation.slot v.index = some slot →
    isVectorValueType (f.valueType v) = true → slot % 2 = 0

/-- An allocated slot ends below `base`. -/
def SlotsBelow (f : ControlFlowFunction) (allocation : ControlFlowRegisterAllocation)
    (base : Nat) : Prop :=
  ∀ (v : Value) slot, v.valid → allocation.slot v.index = some slot →
    slot + stackSlotWidth (f.valueType v) ≤ base

/-- What an argument is read as depends on the registers and on the slots below the
temporaries. -/
lemma argumentValue_congr {s' : EdgeMachine} {base : Nat} {argument : Value}
    (hvalid : argument.valid) (hbelow : SlotsBelow f allocation base)
    (hregisters : ∀ bank index,
      s'.contents (.register bank index) = s.contents (.register bank index))
    (hstack : ∀ q < base, s'.stack q = s.stack q) :
    s'.argumentValue f allocation currentBlock argument =
      s.argumentValue f allocation currentBlock argument := by
  unfold EdgeMachine.argumentValue
  split_ifs with hsource
  · congr 1
    funext r
    rw [registerValue_eq, registerValue_eq, hregisters]
  · cases hslot : allocation.slot argument.index with
    | none => rw [Option.map_none, Option.map_none]
    | some slot =>
        have hend := hbelow argument slot hvalid hslot
        have hsame : s'.slotValue (f.valueType argument) slot =
            s.slotValue (f.valueType argument) slot :=
          slotValue_congr fun q _ hq => hstack q (by omega)
        rw [Option.map_some, Option.map_some, hsame]

/-- **Saving one argument**: its temporary receives what the argument is read as. -/
lemma run_saveArgument {argument : Value} {v : Vector128} {temporary : Nat}
    (hvalid : argument.valid) (haligned : AlignedSlots f allocation)
    (hvalue : s.argumentValue f allocation currentBlock argument = some v)
    (heven : isVectorValueType (f.valueType argument) = true → temporary % 2 = 0) :
    ∃ s', s.runInstructions (saveArgument f allocation currentBlock argument temporary) = some s' ∧
      (∀ bank index, s'.contents (.register bank index) = s.contents (.register bank index)) ∧
      (∀ q < temporary, s'.stack q = s.stack q) ∧
      s'.slotValue (f.valueType argument) temporary = v := by
  unfold EdgeMachine.argumentValue at hvalue
  unfold saveArgument loadControl controlRegister
  by_cases hsource : sourceInRegister allocation currentBlock argument
  · -- the register is stored
    rw [if_pos hsource] at hvalue
    obtain ⟨r, hr, rfl⟩ := Option.map_eq_some_iff.mp hvalue
    simp only [hsource, if_true, hr, List.nil_append]
    refine ⟨s.store (f.valueType argument) (some r) temporary, ?_,
      fun bank index => contents_store_register _ _ _ _, fun q hq => ?_, ?_⟩
    · rw [runInstructions_cons]
      rfl
    · exact stack_store_of_outside heven (.inl hq)
    · rw [slotValue_store heven, registerValue_eq]
      rfl
  · -- the slot goes through the temporary register
    rw [if_neg hsource] at hvalue
    obtain ⟨slot, hslot, rfl⟩ := Option.map_eq_some_iff.mp hvalue
    simp only [hsource, if_false, hslot]
    obtain ⟨loaded, hload, hstack, hcontents⟩ := executeInstruction_loadSlot s
      (f.valueType argument) none (haligned argument slot hvalid hslot)
    refine ⟨loaded.store (f.valueType argument) none temporary, ?_, fun bank index => ?_,
      fun q hq => ?_, ?_⟩
    · rw [runInstructions_append, runInstructions_cons, hload]
      rfl
    · rw [contents_store_register, hcontents]
      exact Function.update_of_ne (by simp [registerLocation]) _ _
    · rw [stack_store_of_outside heven (.inl hq), hstack]
    · rw [slotValue_store heven, hcontents, Function.update_self,
        slotValue_eq s _ slot (haligned argument slot hvalid hslot), typeView_typeView]

/-- Reserving parameters only adds slots. -/
lemma le_reserveParameters {next : Nat} (values : List Value) :
    next ≤ reserveParameters f next values := by
  induction values generalizing next with
  | nil => exact le_rfl
  | cons value values ih =>
      obtain ⟨hge, hend, -⟩ := reserveStackSlot_spec (f.valueType value) next
      calc next ≤ (reserveStackSlot (f.valueType value) next).2 := by omega
        _ ≤ reserveParameters f (reserveStackSlot (f.valueType value) next).2 values := ih

/-- The temporaries of a list of arguments stand one behind the other from `next` on, those of
vectors at even numbers. -/
lemma temporarySlots_spec {next j t : Nat} {arguments : List Value} {argument : Value}
    (hargument : arguments[j]? = some argument)
    (ht : (temporarySlots f next arguments)[j]? = some t) :
    next ≤ t ∧ (isVectorValueType (f.valueType argument) = true → t % 2 = 0) ∧
      t + stackSlotWidth (f.valueType argument) ≤ reserveParameters f next arguments := by
  induction arguments generalizing next j with
  | nil => simp at hargument
  | cons first rest ih =>
      obtain ⟨hge, hend, heven⟩ := reserveStackSlot_spec (f.valueType first) next
      have hunfold : reserveParameters f next (first :: rest) =
          reserveParameters f (reserveStackSlot (f.valueType first) next).2 rest := rfl
      cases j with
      | zero =>
          obtain rfl : first = argument := by simpa using hargument
          obtain rfl : (reserveStackSlot (f.valueType first) next).1 = t := by
            simpa [temporarySlots] using ht
          refine ⟨hge, heven, ?_⟩
          rw [hunfold, ← hend]
          exact le_reserveParameters rest
      | succ j =>
          obtain ⟨hle, heven', hend'⟩ := ih (by simpa using hargument)
            (by simpa [temporarySlots] using ht)
          rw [hunfold]
          exact ⟨by omega, heven', hend'⟩

/-- There is one temporary for each argument. -/
lemma length_temporarySlots {next : Nat} {arguments : List Value} :
    (temporarySlots f next arguments).length = arguments.length := by
  induction arguments generalizing next with
  | nil => rfl
  | cons argument rest ih => simp [temporarySlots, ih]

/-- **Saving all arguments**: every temporary holds what its argument was read as before the first
store. -/
lemma run_saveArguments {base next : Nat} {arguments : List Value} (hnext : base ≤ next)
    (hbelow : SlotsBelow f allocation base) (haligned : AlignedSlots f allocation)
    (hvalid : ∀ argument ∈ arguments, argument.valid)
    (hvalue : ∀ argument ∈ arguments,
      (s.argumentValue f allocation currentBlock argument).isSome) :
    ∃ s', s.runInstructions ((arguments.zip (temporarySlots f next arguments)).flatMap
        fun (argument, temporary) => saveArgument f allocation currentBlock argument temporary) =
          some s' ∧
      (∀ bank index, s'.contents (.register bank index) = s.contents (.register bank index)) ∧
      (∀ q < next, s'.stack q = s.stack q) ∧
      ∀ (j : Nat) argument t, arguments[j]? = some argument →
        (temporarySlots f next arguments)[j]? = some t →
        s.argumentValue f allocation currentBlock argument =
          some (s'.slotValue (f.valueType argument) t) := by
  induction arguments generalizing next s with
  | nil => exact ⟨s, rfl, fun _ _ => rfl, fun _ _ => rfl, by simp⟩
  | cons first rest ih =>
      obtain ⟨hge, hend, heven⟩ := reserveStackSlot_spec (f.valueType first) next
      set reserved := reserveStackSlot (f.valueType first) next with hreserved
      obtain ⟨v, hv⟩ := Option.isSome_iff_exists.mp (hvalue first (by simp))
      obtain ⟨saved, hsaved, hregisters, hstack, hslot⟩ := run_saveArgument
        (hvalid first (by simp)) haligned hv heven
      have hsame : ∀ argument ∈ rest, saved.argumentValue f allocation currentBlock argument =
          s.argumentValue f allocation currentBlock argument := by
        intro argument hmem
        refine argumentValue_congr (hvalid argument (by simp [hmem])) hbelow hregisters ?_
        exact fun q hq => hstack q (by omega)
      obtain ⟨s', hs', hregisters', hstack', hrest⟩ := ih (s := saved)
        (show base ≤ reserved.2 by omega) (fun argument hmem => hvalid argument (by simp [hmem])) (by
          intro argument hmem
          rw [hsame argument hmem]
          exact hvalue argument (by simp [hmem]))
      refine ⟨s', ?_, fun bank index => (hregisters' bank index).trans (hregisters bank index),
        fun q hq => (hstack' q (by omega)).trans (hstack q (by omega)), ?_⟩
      · simp only [temporarySlots, ← hreserved, List.zip_cons_cons, List.flatMap_cons]
        rw [runInstructions_append, hsaved]
        exact hs'
      · intro j argument t hargument ht
        cases j with
        | zero =>
            obtain rfl : first = argument := by simpa using hargument
            obtain rfl : reserved.1 = t := by simpa [temporarySlots] using ht
            -- the temporary of the first argument lies below the others
            rw [hv, ← hslot]
            exact congrArg some (slotValue_congr fun q _ hq => hstack' q (by omega)).symm
        | succ j =>
            have hargument' : rest[j]? = some argument := by simpa using hargument
            rw [← hsame argument (List.mem_of_getElem? hargument')]
            exact hrest j argument t hargument' (by simpa [temporarySlots] using ht)

end save

/-! ## Writing all parameters -/

section deliver

variable {f : ControlFlowFunction} {allocation : ControlFlowRegisterAllocation}
  {targetBlock : Nat} {s : EdgeMachine}

/-- The slot of a parameter is read: it has no register in its block, or another block uses it. -/
def NeedsSlotCopy (allocation : ControlFlowRegisterAllocation) (targetBlock : Nat)
    (parameter : Value) : Prop :=
  controlRegister allocation parameter targetBlock = none ∨
    allocation.requiresStack.getD parameter.index false = true

/-- A parameter is written to a physical register. -/
def WritesRegister (f : ControlFlowFunction) (allocation : ControlFlowRegisterAllocation)
    (targetBlock : Nat) (bank : RegisterBank) (index : Nat) (parameter : Value) : Prop :=
  physicalBank (f.valueType parameter) = bank ∧
    controlRegister allocation parameter targetBlock = some index

/-- A word of the stack lies in the slot of a parameter. -/
def InSlot (f : ControlFlowFunction) (allocation : ControlFlowRegisterAllocation) (q : Nat)
    (parameter : Value) : Prop :=
  ∃ slot, allocation.slot parameter.index = some slot ∧ slot ≤ q ∧
    q < slot + stackSlotWidth (f.valueType parameter)

/-- **Writing one parameter**: it receives what its temporary holds; other registers and other
slots are left as they are. -/
lemma run_deliverParameter {parameter : Value} {temporary : Nat} (hvalid : parameter.valid)
    (haligned : AlignedSlots f allocation)
    (heven : isVectorValueType (f.valueType parameter) = true → temporary % 2 = 0)
    (hslot : NeedsSlotCopy allocation targetBlock parameter →
      (allocation.slot parameter.index).isSome) :
    ∃ s', s.runInstructions (deliverParameter f allocation targetBlock parameter temporary) =
        some s' ∧
      (∀ bank index, ¬ WritesRegister f allocation targetBlock bank index parameter →
        s'.contents (.register bank index) = s.contents (.register bank index)) ∧
      (∀ q, ¬ InSlot f allocation q parameter → s'.stack q = s.stack q) ∧
      (∀ r, controlRegister allocation parameter targetBlock = some r →
        s'.registerValue (f.valueType parameter) r =
          s.slotValue (f.valueType parameter) temporary) ∧
      ∀ slot, NeedsSlotCopy allocation targetBlock parameter →
        allocation.slot parameter.index = some slot →
        s'.slotValue (f.valueType parameter) slot =
          s.slotValue (f.valueType parameter) temporary := by
  set type := f.valueType parameter with htype
  set allocated := controlRegister allocation parameter targetBlock with hallocated
  set v := s.slotValue type temporary with hv
  obtain ⟨loaded, hload, hstack, hcontents⟩ := executeInstruction_loadSlot s type allocated heven
  have hview : typeView type v = v := by
    rw [hv, slotValue_eq s type temporary heven, typeView_typeView]
  have hother : ∀ bank index, ¬ WritesRegister f allocation targetBlock bank index parameter →
      loaded.contents (.register bank index) = s.contents (.register bank index) := by
    intro bank index hnot
    rw [hcontents]
    refine Function.update_of_ne ?_ _ _
    cases hr : allocated with
    | none => simp [registerLocation]
    | some r =>
        intro heq
        obtain ⟨rfl, rfl⟩ : bank = physicalBank type ∧ index = r := by
          simpa [registerLocation] using heq
        exact hnot ⟨rfl, hr⟩
  have hregister : ∀ r, allocated = some r → loaded.registerValue type r = v := by
    intro r hr
    rw [registerValue_eq, hcontents, hr, registerLocation, Function.update_self]
    exact hview
  unfold deliverParameter
  by_cases hneeds : NeedsSlotCopy allocation targetBlock parameter
  · obtain ⟨slot, hs⟩ := Option.isSome_iff_exists.mp (hslot hneeds)
    have halign := haligned parameter slot hvalid hs
    refine ⟨loaded.store type allocated slot, ?_, fun bank index hnot => ?_, fun q hq => ?_,
      fun r hr => ?_, fun slot' _ hs' => ?_⟩
    · have hstored : allocated = none ∨ allocation.requiresStack.getD parameter.index false = true :=
        hneeds
      rw [runInstructions_cons, ← hallocated, ← htype, hload, if_pos hstored, hs]
      rfl
    · rw [contents_store_register, hother bank index hnot]
    · rw [stack_store_of_outside halign, hstack]
      by_contra hin
      exact hq ⟨slot, hs, by omega, by omega⟩
    · rw [registerValue_eq, contents_store_register, ← registerValue_eq, hregister r hr]
    · obtain rfl := Option.some.inj (hs.symm.trans hs')
      rw [slotValue_store halign, hcontents, Function.update_self]
      exact hview
  · refine ⟨loaded, ?_, hother, fun q _ => by rw [hstack], hregister,
      fun slot hcopy => absurd hcopy hneeds⟩
    have hnot : ¬(allocated = none ∨ allocation.requiresStack.getD parameter.index false = true) :=
      hneeds
    rw [runInstructions_cons, ← hallocated, ← htype, hload, if_neg hnot]
    rfl

/-- **Writing all parameters**: each parameter's slot receives what its temporary held, and so
does its register unless a later parameter shares it. -/
lemma run_deliverParameters {base : Nat} {pairs : List (Value × Nat)}
    (hbelow : SlotsBelow f allocation base) (haligned : AlignedSlots f allocation)
    (hvalid : ∀ pair ∈ pairs, pair.1.valid)
    (htemporary : ∀ pair ∈ pairs, base ≤ pair.2 ∧
      (isVectorValueType (f.valueType pair.1) = true → pair.2 % 2 = 0))
    (hslot : ∀ pair ∈ pairs, NeedsSlotCopy allocation targetBlock pair.1 →
      (allocation.slot pair.1.index).isSome)
    (hdisjoint : pairs.Pairwise fun first second =>
      ∀ q, InSlot f allocation q first.1 → ¬ InSlot f allocation q second.1) :
    ∃ s', s.runInstructions (pairs.flatMap fun (parameter, temporary) =>
        deliverParameter f allocation targetBlock parameter temporary) = some s' ∧
      (∀ bank index, (∀ pair ∈ pairs,
          ¬ WritesRegister f allocation targetBlock bank index pair.1) →
        s'.contents (.register bank index) = s.contents (.register bank index)) ∧
      (∀ q, (∀ pair ∈ pairs, ¬ InSlot f allocation q pair.1) → s'.stack q = s.stack q) ∧
      ∀ before parameter temporary after, pairs = before ++ (parameter, temporary) :: after →
        (∀ r, controlRegister allocation parameter targetBlock = some r →
          (∀ pair ∈ after, ¬ WritesRegister f allocation targetBlock
            (physicalBank (f.valueType parameter)) r pair.1) →
          s'.registerValue (f.valueType parameter) r =
            s.slotValue (f.valueType parameter) temporary) ∧
        ∀ slot, NeedsSlotCopy allocation targetBlock parameter →
          allocation.slot parameter.index = some slot →
          s'.slotValue (f.valueType parameter) slot =
            s.slotValue (f.valueType parameter) temporary := by
  induction pairs generalizing s with
  | nil => exact ⟨s, rfl, fun _ _ _ => rfl, fun _ _ => rfl, by simp⟩
  | cons pair rest ih =>
      obtain ⟨first, firstTemporary⟩ := pair
      obtain ⟨hfirst, hrest⟩ := List.pairwise_cons.mp hdisjoint
      obtain ⟨written, hwritten, hregisters, hstack, hregister, hcopy⟩ := run_deliverParameter
        (s := s) (hvalid _ (by simp)) haligned (htemporary (first, firstTemporary) (by simp)).2
        (hslot _ (by simp))
      obtain ⟨s', hs', hregisters', hstack', hlater⟩ := ih (s := written)
        (fun pair hmem => hvalid pair (by simp [hmem]))
        (fun pair hmem => htemporary pair (by simp [hmem]))
        (fun pair hmem => hslot pair (by simp [hmem])) hrest
      refine ⟨s', ?_, fun bank index hnot => ?_, fun q hq => ?_, ?_⟩
      · rw [List.flatMap_cons, runInstructions_append, hwritten]
        exact hs'
      · rw [hregisters' bank index fun pair hmem => hnot pair (by simp [hmem])]
        exact hregisters bank index (hnot (first, firstTemporary) (by simp))
      · rw [hstack' q fun pair hmem => hq pair (by simp [hmem])]
        exact hstack q (hq (first, firstTemporary) (by simp))
      · intro before parameter temporary after hsplit
        cases before with
        | nil =>
            -- the first parameter: the later ones neither write its slot nor its register
            obtain ⟨hhead, rfl⟩ := List.cons.inj hsplit
            obtain ⟨rfl, rfl⟩ := Prod.mk.inj hhead
            refine ⟨fun r hr hfree => ?_, fun slot hneeds hs => ?_⟩
            · rw [registerValue_eq, hregisters' _ r hfree, ← registerValue_eq, hregister r hr]
            · rw [← hcopy slot hneeds hs]
              refine slotValue_congr fun q hq hq' => hstack' q fun pair hmem => ?_
              exact hfirst pair hmem q ⟨slot, hs, hq, hq'⟩
        | cons head before =>
            obtain ⟨-, hsplit⟩ := List.cons.inj hsplit
            obtain ⟨hlaterRegister, hlaterSlot⟩ := hlater before parameter temporary after hsplit
            -- the temporaries lie behind all slots, so the first parameter does not touch them
            have hmem : (parameter, temporary) ∈ rest := by
              rw [hsplit]
              simp
            have hkept : written.slotValue (f.valueType parameter) temporary =
                s.slotValue (f.valueType parameter) temporary := by
              refine slotValue_congr fun q hq _ => hstack q ?_
              rintro ⟨slot, hs, -, hend⟩
              change q < slot + stackSlotWidth (f.valueType first) at hend
              have hbound := hbelow first slot (hvalid (first, firstTemporary) (by simp)) hs
              have hge := (htemporary _ (List.mem_cons_of_mem _ hmem)).1
              omega
            rw [hkept] at hlaterRegister hlaterSlot
            exact ⟨hlaterRegister, hlaterSlot⟩

end deliver

/-! ## Parameters and their locations -/

section parameters

variable {f : ControlFlowFunction} {allocation : ControlFlowRegisterAllocation}
  {requirements : StackMapRequirements} {reuseFinalFloatLhs : Bool}

/-- The parameters of a block are its first instructions. -/
lemma parameter_position (howned : f.Owned) {b j : Nat} {block : BasicBlock} {parameter : Value}
    (hblock : f.blocks[b]? = some block) (hj : block.parameters[j]? = some parameter) :
    block.instructions[j]? = some parameter ∧
      ∃ n, f.nodes[parameter.index]? = some n ∧ n.opcode = ControlFlowFunction.expectedParameter b := by
  have hlt := (List.getElem?_eq_some_iff.mp hj).1
  have hle := (howned.block hblock).parameters
  obtain ⟨v, hv⟩ : ∃ v, block.instructions[j]? = some v :=
    ⟨_, List.getElem?_eq_getElem (by omega)⟩
  obtain ⟨n, hn, hnode⟩ := (howned.block hblock).instruction j v hv
  obtain ⟨hparameter, hopcode, -⟩ := hnode.parameter hlt
  obtain rfl := Option.some.inj (hj.symm.trans hparameter)
  exact ⟨hv, n, hn, hopcode⟩

/-- A block reads nothing at the positions of its parameters. -/
lemma le_of_usedInBlock (howned : f.Owned) {b k p : Nat} {block : BasicBlock}
    (hblock : f.blocks[b]? = some block) (hused : UsedInBlock f requirements b k p) :
    block.parameters.length ≤ p := by
  obtain ⟨block', hblock', value, -, -, hread | ⟨rfl, -⟩⟩ := hused
  all_goals obtain rfl := Option.some.inj (hblock.symm.trans hblock')
  · obtain ⟨v, hv, hmem⟩ := hread
    by_contra hlt
    obtain ⟨parameter, hparameter⟩ : ∃ parameter, block.parameters[p]? = some parameter :=
      ⟨_, List.getElem?_eq_getElem (by omega)⟩
    obtain ⟨hposition, n, hn, hopcode⟩ := parameter_position howned hblock hparameter
    obtain rfl := Option.some.inj (hv.symm.trans hposition)
    have hnode : nodeOf f v = n := by rw [nodeOf, List.getD, hn, Option.getD_some]
    simp only [instructionReads, hnode, hopcode, ControlFlowFunction.expectedParameter] at hmem
    split_ifs at hmem <;> exact absurd hmem (by simp)
  · exact (howned.block hblock).parameters

/-- **No later parameter shares the register** of a parameter that its block reads. -/
lemma parameter_register_ne (howned : f.Owned)
    (hsound : allocation.Sound f requirements reuseFinalFloatLhs .sharedWithFloat64)
    {b i j p r : Nat} {block : BasicBlock} {parameter later : Value}
    (hblock : f.blocks[b]? = some block) (hi : block.parameters[i]? = some parameter)
    (hj : block.parameters[j]? = some later) (hij : i < j)
    (hused : UsedInBlock f requirements b parameter.index p)
    (hr : controlRegister allocation parameter b = some r) :
    ¬ WritesRegister f allocation b (physicalBank (f.valueType parameter)) r later := by
  rintro ⟨hbank, hr'⟩
  obtain ⟨hposition, n, hn, hopcode⟩ := parameter_position howned hblock hi
  obtain ⟨hposition', n', hn', hopcode'⟩ := parameter_position howned hblock hj
  have hdef : f.DefinedAt parameter.index b i := ⟨block, parameter, hblock, hposition, rfl⟩
  have hdef' : f.DefinedAt later.index b j := ⟨block, later, hblock, hposition', rfl⟩
  have hne : parameter.index ≠ later.index := by
    intro heq
    have := (howned.unique hdef (heq ▸ hdef')).2
    omega
  have hend := le_of_usedInBlock howned hblock hused
  have hlt := (List.getElem?_eq_some_iff.mp hj).1
  have hregister : ∀ {value : Value} {q : Nat}, controlRegister allocation value b = some q →
      allocation.register value.index = some q := by
    intro value q h
    unfold controlRegister at h
    split_ifs at h
    exact h
  have hbankOf : ∀ {value : Value}, f.validValue value →
      valueBank f .sharedWithFloat64 value.index = some (physicalBank (f.valueType value)) := by
    intro value hvalue
    rw [valueBank, ← valueType_eq_valueTypeAt hvalue.1]
    cases f.valueType value <;> rfl
  have hvalid := howned.valid hblock hposition
  have hvalid' := howned.valid hblock hposition'
  -- both are live where the later one is defined, and parameters do not take registers over
  have hnotReuse : ∀ {value : Value} {m : ControlNode}, f.nodes[value.index]? = some m →
      m.opcode = ControlFlowFunction.expectedParameter b →
        ∀ k q, ¬ TakesOver f requirements reuseFinalFloatLhs b k value.index q := by
    rintro value m hm hop k q ⟨-, -, ⟨m', hm', hreuse, -⟩, -⟩
    obtain rfl := Option.some.inj (hm.symm.trans hm')
    rw [hop, ControlFlowFunction.expectedParameter] at hreuse
    split_ifs at hreuse <;> exact absurd hreuse (by simp [canReuseFloatLhs])
  rcases hsound.exclusive b parameter.index later.index j r _ hne
    ⟨i, hdef, by omega, .inr ⟨p, by omega, hused⟩⟩ ⟨j, hdef', le_rfl, .inl rfl⟩
    (hbankOf hvalid) (by rw [hbankOf hvalid', hbank]) (hregister hr) (hregister hr')
    with htakes | htakes
  · exact hnotReuse hn' hopcode' _ _ htakes
  · exact hnotReuse hn hopcode _ _ htakes

/-- A sound allocation aligns the slots of vectors. -/
lemma alignedSlots_of_sound {vectorMode : VectorRegisterMode}
    (hsound : allocation.Sound f requirements reuseFinalFloatLhs vectorMode) :
    AlignedSlots f allocation := by
  intro v slot hvalid hslot hvec
  rw [valueType_eq_valueTypeAt hvalid] at hvec
  exact (hsound.aligned _ slot hslot hvec).1

/-- A sound allocation keeps its slots below their count. -/
lemma slotsBelow_of_sound {vectorMode : VectorRegisterMode}
    (hsound : allocation.Sound f requirements reuseFinalFloatLhs vectorMode) :
    SlotsBelow f allocation allocation.stackSlots := by
  intro v slot hvalid hslot
  rw [valueType_eq_valueTypeAt hvalid]
  exact hsound.bounded _ slot hslot

/-- The slots of two parameters of a block have no word in common. -/
lemma parameter_slot_disjoint {vectorMode : VectorRegisterMode} (howned : f.Owned)
    (hsound : allocation.Sound f requirements reuseFinalFloatLhs vectorMode)
    {b i j : Nat} {block : BasicBlock} {first second : Value}
    (hblock : f.blocks[b]? = some block) (hi : block.parameters[i]? = some first)
    (hj : block.parameters[j]? = some second) (hij : i < j) (q : Nat)
    (hq : InSlot f allocation q first) : ¬ InSlot f allocation q second := by
  rintro ⟨t, ht, hge', hlt'⟩
  obtain ⟨s, hs, hge, hlt⟩ := hq
  have hposition := (parameter_position howned hblock hi).1
  have hposition' := (parameter_position howned hblock hj).1
  have hdef : f.DefinedAt first.index b i := ⟨block, first, hblock, hposition, rfl⟩
  have hdef' : f.DefinedAt second.index b j := ⟨block, second, hblock, hposition', rfl⟩
  have hne : first.index ≠ second.index := by
    intro heq
    have := (howned.unique hdef (heq ▸ hdef')).2
    omega
  rw [valueType_eq_valueTypeAt (howned.valid hblock hposition).1] at hlt
  rw [valueType_eq_valueTypeAt (howned.valid hblock hposition').1] at hlt'
  have hapart := hsound.localDisjoint _ _ b i j s t hne hdef hdef' hs ht
  unfold slotWidth at hapart
  omega

end parameters

/-! ## Edges -/

section edges

variable {f : ControlFlowFunction}

/-- Values of the same types are reserved the same slots. -/
lemma reserveParameters_eq_of_types {next : Nat} {first second : List Value}
    (h : first.map f.valueType = second.map f.valueType) :
    reserveParameters f next first = reserveParameters f next second := by
  have hfold : ∀ values : List Value, reserveParameters f next values =
      (values.map f.valueType).foldl (fun slot type => (reserveStackSlot type slot).2) next := by
    intro values
    unfold reserveParameters
    rw [List.foldl_map]
  rw [hfold, hfold, h]

/-- The reserved area has room for the temporaries of every block. -/
lemma reserveParameters_le_spillSlots {stackSlots : Nat} {block : BasicBlock}
    (hblock : block ∈ f.blocks) :
    reserveParameters f stackSlots block.parameters ≤ spillSlots f stackSlots :=
  le_foldl_max_of_mem (fun block => reserveParameters f stackSlots block.parameters) hblock _

lemma le_spillSlots {stackSlots : Nat} : stackSlots ≤ spillSlots f stackSlots :=
  le_foldl_max (fun block => reserveParameters f stackSlots block.parameters) f.blocks _

/-- The arguments of an edge have the types of the target's parameters. -/
lemma map_valueType_eq (howned : f.Owned) {block target : BasicBlock} {currentBlock : Nat}
    {edge : ControlEdge} (hblock : f.blocks[currentBlock]? = some block)
    (hedge : edge ∈ block.terminator.edges)
    (htarget : f.blocks[edge.target.index]? = some target) :
    edge.arguments.map f.valueType = target.parameters.map f.valueType := by
  obtain ⟨hlength, harguments⟩ := ((howned.block hblock).edge edge hedge).arguments target htarget
  refine List.ext_getElem (by simpa using hlength) fun j h₁ h₂ => ?_
  rw [List.getElem_map, List.getElem_map]
  exact (harguments j _ _ (List.getElem?_eq_getElem _) (List.getElem?_eq_getElem _)).2

end edges

/-! ## The temporary path of an edge -/

/-- An edge of a function whose registers are allocated. -/
structure AllocatedEdge (f : ControlFlowFunction) (requirements : StackMapRequirements)
    (reuseFinalFloatLhs : Bool) (allocation : ControlFlowRegisterAllocation) (currentBlock : Nat)
    (edge : ControlEdge) (block target : BasicBlock) : Prop where
  owned : f.Owned
  sound : allocation.Sound f requirements reuseFinalFloatLhs .sharedWithFloat64
  /-- The slots that other blocks read. -/
  requiresStack : ∀ {k b i : Nat}, f.DefinedAt k b i →
    (allocation.requiresStack.getD k false = true ↔
      ∃ b' p, b' ≠ b ∧ UsedInBlock f requirements b' k p)
  source : f.blocks[currentBlock]? = some block
  leaves : edge ∈ block.terminator.edges
  enters : f.blocks[edge.target.index]? = some target

namespace AllocatedEdge

variable {f : ControlFlowFunction} {requirements : StackMapRequirements} {reuseFinalFloatLhs : Bool}
  {allocation : ControlFlowRegisterAllocation} {currentBlock : Nat} {edge : ControlEdge}
  {block target : BasicBlock} {s s' : EdgeMachine} {j : Nat} {argument parameter : Value}
  {temporary : Nat}
  (h : AllocatedEdge f requirements reuseFinalFloatLhs allocation currentBlock edge block target)
include h

/-- There is an argument for each parameter. -/
lemma length : edge.arguments.length = target.parameters.length :=
  (((h.owned.block h.source).edge edge h.leaves).arguments target h.enters).1

/-- An argument is a value of the type of its parameter. -/
lemma validValue_argument (hargument : edge.arguments[j]? = some argument)
    (hparameter : target.parameters[j]? = some parameter) :
    f.validValue argument ∧ f.valueType argument = f.valueType parameter :=
  (((h.owned.block h.source).edge edge h.leaves).arguments target h.enters).2 j argument parameter
    hargument hparameter

/-- An argument of an edge is a value. -/
lemma validValue (hmem : argument ∈ edge.arguments) : f.validValue argument := by
  obtain ⟨j, hj⟩ := List.mem_iff_getElem?.mp hmem
  have hlt := (List.getElem?_eq_some_iff.mp hj).1
  have hlength := h.length
  exact (h.validValue_argument hj (List.getElem?_eq_getElem (by omega))).1

/-- Every argument can be read before the copies. -/
lemma argumentValue_isSome (s : EdgeMachine) (hmem : argument ∈ edge.arguments) :
    (s.argumentValue f allocation currentBlock argument).isSome := by
  unfold EdgeMachine.argumentValue
  split_ifs with hsource
  · obtain ⟨r, hr⟩ := Option.ne_none_iff_exists'.mp hsource.2
    simp [hr]
  · have hslot := slot_isSome_of_argument h.owned h.sound h.source (h.validValue hmem)
      (mem_terminatorUses_of_edge h.leaves hmem) hsource
    simpa using hslot

/-- **Copying into the temporaries**: each holds what its argument was read as. -/
lemma saves (s : EdgeMachine) :
    ∃ saved, s.runInstructions
        ((edge.arguments.zip (temporarySlots f allocation.stackSlots edge.arguments)).flatMap
          fun (argument, temporary) => saveArgument f allocation currentBlock argument temporary) =
            some saved ∧
      ∀ (j : Nat) argument t, edge.arguments[j]? = some argument →
        (temporarySlots f allocation.stackSlots edge.arguments)[j]? = some t →
        s.argumentValue f allocation currentBlock argument =
          some (saved.slotValue (f.valueType argument) t) := by
  obtain ⟨saved, hsaved, -, -, hvalues⟩ := run_saveArguments (s := s) le_rfl
    (slotsBelow_of_sound h.sound) (alignedSlots_of_sound h.sound)
    (fun argument hmem => (h.validValue hmem).1) fun argument => h.argumentValue_isSome s
  exact ⟨saved, hsaved, hvalues⟩

/-- A parameter is defined at its place in the target. -/
lemma definedAt (hparameter : target.parameters[j]? = some parameter) :
    f.DefinedAt parameter.index edge.target.index j :=
  ⟨target, _, h.enters, (parameter_position h.owned h.enters hparameter).1, rfl⟩

/-- A parameter whose slot is read has one. -/
lemma slot_isSome (hparameter : target.parameters[j]? = some parameter)
    (hneeds : NeedsSlotCopy allocation edge.target.index parameter) :
    (allocation.slot parameter.index).isSome := by
  have hdefined := h.definedAt hparameter
  rcases hneeds with hnone | hstack
  · have howner := (h.sound.owners _ (h.owned.lt hdefined) _).mpr ⟨j, hdefined⟩
    have hregister : allocation.register parameter.index = none := by
      by_contra hsome
      rw [controlRegister, if_pos ⟨howner, hsome⟩] at hnone
      exact hsome hnone
    simpa [hregister] using h.sound.located _ (h.owned.lt hdefined)
  · obtain ⟨b, p, hne, hused⟩ := (h.requiresStack hdefined).mp hstack
    obtain ⟨slot, hslot, -⟩ := h.sound.persistent _ _ j b p hdefined hne hused
    simp [hslot]

/-- A temporary is behind the slots and aligned for its parameter. -/
lemma temporary_spec (hparameter : target.parameters[j]? = some parameter)
    (htemporary : (temporarySlots f allocation.stackSlots edge.arguments)[j]? = some temporary) :
    allocation.stackSlots ≤ temporary ∧
      (isVectorValueType (f.valueType parameter) = true → temporary % 2 = 0) := by
  have hlt := (List.getElem?_eq_some_iff.mp htemporary).1
  rw [length_temporarySlots] at hlt
  have hargument : edge.arguments[j]? = some _ := List.getElem?_eq_getElem hlt
  obtain ⟨hge, heven, -⟩ := temporarySlots_spec hargument htemporary
  exact ⟨hge, (h.validValue_argument hargument hparameter).2 ▸ heven⟩

/-- **Copying from the temporaries**: a parameter that its block reads from a register finds there
what its temporary held, and so does whoever reads its slot. -/
lemma delivers (s : EdgeMachine) :
    ∃ s', s.runInstructions
        ((target.parameters.zip (temporarySlots f allocation.stackSlots edge.arguments)).flatMap
          fun (parameter, temporary) =>
            deliverParameter f allocation edge.target.index parameter temporary) = some s' ∧
      ∀ (j : Nat) parameter temporary, target.parameters[j]? = some parameter →
        (temporarySlots f allocation.stackSlots edge.arguments)[j]? = some temporary →
        (∀ p r, UsedInBlock f requirements edge.target.index parameter.index p →
          controlRegister allocation parameter edge.target.index = some r →
          s'.registerValue (f.valueType parameter) r =
            s.slotValue (f.valueType parameter) temporary) ∧
        (NeedsSlotCopy allocation edge.target.index parameter →
          ∃ slot, allocation.slot parameter.index = some slot ∧
            s'.slotValue (f.valueType parameter) slot =
              s.slotValue (f.valueType parameter) temporary) := by
  set temporaries := temporarySlots f allocation.stackSlots edge.arguments
  set pairs := target.parameters.zip temporaries with hpairs
  have hsplit : ∀ {k : Nat} {pair : Value × Nat}, pairs[k]? = some pair →
      target.parameters[k]? = some pair.1 ∧ temporaries[k]? = some pair.2 := fun hk =>
    List.getElem?_zip_eq_some.mp hk
  have hvalid : ∀ pair ∈ pairs, pair.1.valid := by
    intro pair hmem
    obtain ⟨k, hk⟩ := List.mem_iff_getElem?.mp hmem
    exact (h.owned.valid h.enters (parameter_position h.owned h.enters (hsplit hk).1).1).1
  have htemporary : ∀ pair ∈ pairs, allocation.stackSlots ≤ pair.2 ∧
      (isVectorValueType (f.valueType pair.1) = true → pair.2 % 2 = 0) := by
    intro pair hmem
    obtain ⟨k, hk⟩ := List.mem_iff_getElem?.mp hmem
    exact h.temporary_spec (hsplit hk).1 (hsplit hk).2
  have hslot : ∀ pair ∈ pairs, NeedsSlotCopy allocation edge.target.index pair.1 →
      (allocation.slot pair.1.index).isSome := by
    intro pair hmem
    obtain ⟨k, hk⟩ := List.mem_iff_getElem?.mp hmem
    exact h.slot_isSome (hsplit hk).1
  have hdisjoint : pairs.Pairwise fun first second =>
      ∀ q, InSlot f allocation q first.1 → ¬ InSlot f allocation q second.1 := by
    rw [List.pairwise_iff_getElem]
    intro i k hi hk hik
    exact parameter_slot_disjoint h.owned h.sound h.enters
      (hsplit (List.getElem?_eq_getElem hi)).1 (hsplit (List.getElem?_eq_getElem hk)).1 hik
  obtain ⟨s', hs', -, -, hdelivered⟩ := run_deliverParameters (s := s)
    (slotsBelow_of_sound h.sound) (alignedSlots_of_sound h.sound) hvalid htemporary hslot hdisjoint
  refine ⟨s', hs', fun j parameter temporary hparameter ht => ?_⟩
  have hzip : pairs[j]? = some (parameter, temporary) :=
    List.getElem?_zip_eq_some.mpr ⟨hparameter, ht⟩
  obtain ⟨hj, hget⟩ := List.getElem?_eq_some_iff.mp hzip
  obtain ⟨hregister, hcopied⟩ := hdelivered (pairs.take j) parameter temporary
    (pairs.drop (j + 1)) (by rw [← hget, List.cons_getElem_drop_succ, List.take_append_drop])
  refine ⟨fun p r hused hcontrol => hregister r hcontrol ?_, fun hneeds => ?_⟩
  · -- the block that reads it defines it: no later parameter has taken its register
    intro pair hmem
    obtain ⟨k, hk⟩ := List.mem_iff_getElem?.mp hmem
    rw [List.getElem?_drop] at hk
    exact parameter_register_ne h.owned h.sound h.enters hparameter (hsplit hk).1 (by omega) hused
      hcontrol
  · obtain ⟨slot, hs⟩ := Option.isSome_iff_exists.mp (h.slot_isSome hparameter hneeds)
    exact ⟨slot, hs, hcopied slot hneeds hs⟩

/-- Every block that reads a delivered parameter finds its value. -/
lemma argumentValue_of_delivered {v : Vector128}
    (hparameter : target.parameters[j]? = some parameter)
    (hregister : ∀ p r, UsedInBlock f requirements edge.target.index parameter.index p →
      controlRegister allocation parameter edge.target.index = some r →
      s'.registerValue (f.valueType parameter) r = v)
    (hcopied : NeedsSlotCopy allocation edge.target.index parameter →
      ∃ slot, allocation.slot parameter.index = some slot ∧
        s'.slotValue (f.valueType parameter) slot = v)
    {b p : Nat} (hused : UsedInBlock f requirements b parameter.index p) :
    s'.argumentValue f allocation b parameter = some v := by
  have hdefined := h.definedAt hparameter
  unfold EdgeMachine.argumentValue
  split_ifs with hsource
  · obtain ⟨i, hdef⟩ := (h.sound.owners _ (h.owned.lt hdefined) b).mp hsource.1
    obtain rfl : b = edge.target.index := (h.owned.unique hdef hdefined).1
    obtain ⟨r, hr⟩ := Option.ne_none_iff_exists'.mp hsource.2
    have hcontrol : controlRegister allocation parameter edge.target.index = some r := by
      rw [controlRegister, if_pos hsource, hr]
    rw [hr, Option.map_some, hregister p r hused hcontrol]
  · -- it is read from its slot, which the copy fills
    have hneeds : NeedsSlotCopy allocation edge.target.index parameter := by
      by_cases hb : b = edge.target.index
      · left
        rw [controlRegister, if_neg (hb ▸ hsource)]
      · exact .inr ((h.requiresStack hdefined).mpr ⟨b, p, hb, hused⟩)
    obtain ⟨slot, hs, hvalue⟩ := hcopied hneeds
    rw [hs, Option.map_some, hvalue]

/-- **The code of the temporary path** delivers every argument to its parameter. -/
lemma runs (s : EdgeMachine) :
    ∃ s', s.runInstructions
        (copyThroughTemporaries f allocation edge currentBlock allocation.stackSlots) = some s' ∧
      ∀ (j : Nat) argument parameter, edge.arguments[j]? = some argument →
        target.parameters[j]? = some parameter →
        ∃ v, s.argumentValue f allocation currentBlock argument = some v ∧
          (∀ b p, UsedInBlock f requirements b parameter.index p →
            s'.argumentValue f allocation b parameter = some v) ∧
          (NeedsSlotCopy allocation edge.target.index parameter →
            ∃ slot, allocation.slot parameter.index = some slot ∧
              s'.slotValue (f.valueType parameter) slot = v) := by
  obtain ⟨saved, hsaved, hvalues⟩ := h.saves s
  obtain ⟨s', hs', hdelivered⟩ := h.delivers saved
  have htarget : f.blocks.getD edge.target.index {} = target := by
    rw [List.getD, h.enters, Option.getD_some]
  refine ⟨s', ?_, fun j argument parameter hargument hparameter => ?_⟩
  · rw [copyThroughTemporaries, htarget, runInstructions_append, hsaved]
    exact hs'
  have hlt := (List.getElem?_eq_some_iff.mp hargument).1
  obtain ⟨temporary, ht⟩ : ∃ temporary,
      (temporarySlots f allocation.stackSlots edge.arguments)[j]? = some temporary :=
    ⟨_, List.getElem?_eq_getElem (by rw [length_temporarySlots]; exact hlt)⟩
  obtain ⟨hregister, hcopied⟩ := hdelivered j parameter temporary hparameter ht
  refine ⟨saved.slotValue (f.valueType parameter) temporary, ?_, fun b p => ?_, hcopied⟩
  · rw [hvalues j argument temporary hargument ht, (h.validValue_argument hargument hparameter).2]
  · exact h.argumentValue_of_delivered hparameter hregister hcopied

/-- **The temporaries** lie behind every slot, in the area that the frame reserves for them. -/
lemma temporary_bounds (useLseAtomics : Bool) (hargument : edge.arguments[j]? = some argument)
    (htemporary : (temporarySlots f allocation.stackSlots edge.arguments)[j]? = some temporary) :
    (∀ k slot, allocation.slot k = some slot → slot + slotWidth f k ≤ temporary) ∧
      temporary + stackSlotWidth (f.valueType argument) ≤
        (controlFlowFrame f useLseAtomics allocation.stackSlots).frameSlotBase := by
  obtain ⟨hge, -, hend⟩ := temporarySlots_spec hargument htemporary
  refine ⟨fun k slot hslot => le_trans (h.sound.bounded k slot hslot) hge, hend.trans ?_⟩
  rw [reserveParameters_eq_of_types (map_valueType_eq h.owned h.source h.leaves h.enters)]
  exact reserveParameters_le_spillSlots (List.mem_of_getElem? h.enters)

end AllocatedEdge

/-- **Edge copies through temporary slots are correct.** When the register plan of an edge
declines, the emitted code runs from every machine state. For every parameter of the target it
delivers what its argument was read as before the first instruction: a block that reads the
parameter, the target from its register or else its slot and any other block from its slot, finds
that value there, and so does whoever reads the slot of a parameter that has no register or that
another block uses. The temporaries lie behind every allocated slot and within the area that the
frame reserves for them. -/
theorem copyEdgeArguments_temporaries_deliver (f : ControlFlowFunction)
    (wordRegisterCount simdRegisterCount : Nat) (requirements : StackMapRequirements)
    (reuseFinalFloatLhs useLseAtomics : Bool) (allocation : ControlFlowRegisterAllocation)
    (currentBlock : Nat) (block target : BasicBlock) (edge : ControlEdge) (fuel : Nat)
    (plan : ControlFlowEdgeMoves) (verified : f.verify = .ok ())
    (allocated : allocateControlFlowRegisters f wordRegisterCount simdRegisterCount requirements
      reuseFinalFloatLhs .sharedWithFloat64 = .ok allocation)
    (hblock : f.blocks[currentBlock]? = some block) (hedge : edge ∈ block.terminator.edges)
    (htarget : f.blocks[edge.target.index]? = some target)
    (hplan : planControlFlowEdgeMoves fuel f edge allocation currentBlock = some plan)
    (declined : plan.usesRegisters = false) :
    (∃ code, copyEdgeArguments f allocation fuel edge currentBlock allocation.stackSlots =
        some code ∧
      ∀ s : EdgeMachine, ∃ s', s.runInstructions code = some s' ∧
        ∀ (j : Nat) argument parameter, edge.arguments[j]? = some argument →
          target.parameters[j]? = some parameter →
          ∃ v, s.argumentValue f allocation currentBlock argument = some v ∧
            (∀ b p, UsedInBlock f requirements b parameter.index p →
              s'.argumentValue f allocation b parameter = some v) ∧
            (NeedsSlotCopy allocation edge.target.index parameter →
              ∃ slot, allocation.slot parameter.index = some slot ∧
                s'.slotValue (f.valueType parameter) slot = v)) ∧
    ∀ (j : Nat) argument temporary, edge.arguments[j]? = some argument →
      (temporarySlots f allocation.stackSlots edge.arguments)[j]? = some temporary →
      (∀ k slot, allocation.slot k = some slot → slot + slotWidth f k ≤ temporary) ∧
        temporary + stackSlotWidth (f.valueType argument) ≤
          (controlFlowFrame f useLseAtomics allocation.stackSlots).frameSlotBase := by
  have howned := ControlFlowFunction.verify_owned verified
  have h : AllocatedEdge f requirements reuseFinalFloatLhs allocation currentBlock edge block
      target :=
    ⟨howned, sound_of_allocateControlFlowRegisters howned allocated,
      requiresStack_iff howned allocated, hblock, hedge, htarget⟩
  refine ⟨⟨copyThroughTemporaries f allocation edge currentBlock allocation.stackSlots, ?_, h.runs⟩,
    fun j argument temporary => h.temporary_bounds useLseAtomics⟩
  rw [copyEdgeArguments, hplan, Option.map_some, declined]
  rfl

/-- A loop that rotates its three parameters. -/
def rotateSample : ControlFlowFunction where
  parameterTypes := [.word]
  entryBlock := .ofIndex 0
  nodes :=
    [{ opcode := .parameter },
     { opcode := .blockParameter },
     { opcode := .blockParameter, immediate := 1 },
     { opcode := .blockParameter, immediate := 2 }]
  blocks :=
    [{ parameters := [.ofIndex 0]
       instructions := [.ofIndex 0]
       terminator := .jump ⟨.ofIndex 1, [.ofIndex 0, .ofIndex 0, .ofIndex 0]⟩ },
     { parameters := [.ofIndex 1, .ofIndex 2, .ofIndex 3]
       instructions := [.ofIndex 1, .ofIndex 2, .ofIndex 3]
       terminator := .branch (.ofIndex 1) ⟨.ofIndex 1, [.ofIndex 2, .ofIndex 3, .ofIndex 1]⟩
        ⟨.ofIndex 2, []⟩ },
     { terminator := .ret (.ofIndex 2) }]

/-- With one register, two of the parameters have slots only. -/
def rotateSampleAllocation : ControlFlowRegisterAllocation where
  registerIndices := [some 0, some 0, none, none]
  ownerBlocks := [some 0, some 1, some 1, some 1]
  requiresStack := [false, false, true, false]
  stackIndices := [none, none, some 0, some 1]
  stackSlots := 2
  liveAcrossCalls := [[], [], [], []]

/-- The rotation goes through three temporaries behind the two slots. -/
theorem copyEdgeArguments_temporaries_deliver_rotateSample :
    temporarySlots rotateSample 2 [.ofIndex 2, .ofIndex 3, .ofIndex 1] = [2, 3, 4] ∧
    (∃ code, copyEdgeArguments rotateSample rotateSampleAllocation 0
        ⟨.ofIndex 1, [.ofIndex 2, .ofIndex 3, .ofIndex 1]⟩ 1 2 = some code ∧
      ∀ s : EdgeMachine, ∃ s', s.runInstructions code = some s' ∧
        ∀ (j : Nat) argument parameter,
          [Value.ofIndex 2, .ofIndex 3, .ofIndex 1][j]? = some argument →
          [Value.ofIndex 1, .ofIndex 2, .ofIndex 3][j]? = some parameter →
          ∃ v, s.argumentValue rotateSample rotateSampleAllocation 1 argument = some v ∧
            (∀ b p, UsedInBlock rotateSample [] b parameter.index p →
              s'.argumentValue rotateSample rotateSampleAllocation b parameter = some v) ∧
            (NeedsSlotCopy rotateSampleAllocation 1 parameter →
              ∃ slot, rotateSampleAllocation.slot parameter.index = some slot ∧
                s'.slotValue (rotateSample.valueType parameter) slot = v)) := by
  have hverified : rotateSample.verify = .ok () := by decide
  have hallocated : allocateControlFlowRegisters rotateSample 1 1 [] false .sharedWithFloat64 =
      .ok rotateSampleAllocation := by rfl
  refine ⟨by decide, ?_⟩
  exact (copyEdgeArguments_temporaries_deliver rotateSample 1 1 [] false true
    rotateSampleAllocation 1 _ _ ⟨.ofIndex 1, [.ofIndex 2, .ofIndex 3, .ofIndex 1]⟩ 0 _ hverified
    hallocated rfl (by decide) rfl (by rfl) rfl).1

end UniJit.Jit
