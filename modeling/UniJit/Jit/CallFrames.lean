import UniJit.Jit.EdgeTemporaries

/-!
# Frames with calls

Where a frame keeps the arguments of calls, the return address and the result of an atomic fallback.
A frame of a straight-line function has them behind its values and its frame slots; in the frame of
a control-flow graph the context is in between. RISC-V keeps a vector behind everything.

What an atomic operation needs of the frame is the same each time: the arguments are behind the
values, in reach of an offset, and a function with a fallback has room for five of them in front of
its result (`Room`).
-/

namespace UniJit.Jit

open UniJit.Ir UniJit.Lib

/-! ## The calls of a function -/

section calls

variable {Op : Type} (operation? : Op → Option Operation)
  (isFallback : NodeOf Op → Operation → Bool) (nodes : List (NodeOf Op))

/-- The numbers of arguments with which the nodes call out. -/
def callsOf : List Nat :=
  nodes.filterMap fun n => (operation? n.opcode).bind fun o =>
    if o = .call ∨ o = .fastCall then some n.argumentCount.toNat
    else if isFallback n o then some kAtomicFallbackArgumentCount
    else none

/-- Some node may call the atomic fallback. -/
def callsFallback : Bool := nodes.any fun n => (operation? n.opcode).any (isFallback n)

variable {operation? isFallback nodes} {n : NodeOf Op} {o : AtomicOpcode}

/-- A fallback counts as a call with its five arguments. -/
lemma le_maximum_callsOf (hn : n ∈ nodes) (ho : operation? n.opcode = some (.atomic o))
    (hfallback : isFallback n (.atomic o) = true) :
    kAtomicFallbackArgumentCount ≤ (callsOf operation? isFallback nodes).foldl max 0 ∧
      (callsOf operation? isFallback nodes).isEmpty = false := by
  have hmem : kAtomicFallbackArgumentCount ∈ callsOf operation? isFallback nodes := by
    refine List.mem_filterMap.mpr ⟨n, hn, ?_⟩
    rw [ho, Option.bind_some, if_neg (by simp), if_pos hfallback]
  constructor
  · exact le_foldl_max_of_mem (fun count => count) hmem 0
  · rw [List.isEmpty_eq_false_iff]
    exact List.ne_nil_of_mem hmem

end calls

/-- The frame has room for a fallback: `base` is where its arguments go, behind `slots` slots. -/
structure Room (slots base atomicResultSlot : Nat) (fallback : Prop) : Prop where
  behind : slots ≤ base
  reached : base * 8 < 2 ^ 64
  arguments : fallback → base + kAtomicFallbackArgumentCount ≤ atomicResultSlot

/-! ## Straight lines -/

/-- The slots of a frame: allocated values, then the function's frame slots, the arguments of calls,
the return address, the result of an atomic fallback, the context and the stack map. -/
structure StraightFrame where
  frameSlotBase : Nat
  callArgumentBase : Nat
  returnAddressSlot : Nat
  atomicResultSlot : Nat
  contextSlot : Nat
  stackMapBase : Nat
  totalSlots : Nat
  deriving DecidableEq, Repr

section straight

variable (f : Function) (isFallback : Node → Operation → Bool)

/-- The frame of a straight-line function; frames that direct offsets do not reach are refused. -/
def straightFrame (vectorTemporary : Bool) (kMaximumStackSize : Nat) (tooLarge : String)
    (spillSlots : Nat) : Except Status StraightFrame := do
  let hasContextOperations := f.nodes.any fun n => n.opcode.operation?.any (isContextOperation <| .op ·)
  let calls := callsOf Opcode.operation? isFallback f.nodes
  let hasAtomicFallback := callsFallback Opcode.operation? isFallback f.nodes
  let callArgumentBase := spillSlots + f.frameSlots.length
  let returnAddressSlot := callArgumentBase + calls.foldl max 0
  let atomicResultSlot := returnAddressSlot + (!calls.isEmpty).toNat
  let contextSlot := atomicResultSlot + hasAtomicFallback.toNat
  let stackMapBase := contextSlot + hasContextOperations.toNat
  let scalarTotalSlots := stackMapBase + if hasContextOperations then f.nodes.length else 0
  let totalSlots :=
    if vectorTemporary then (scalarTotalSlots + 1) / 2 * 2 + 2 else scalarTotalSlots
  require (totalSlots ≤ kMaximumStackSize / 8) ⟨.resourceExhausted, tooLarge, 0⟩
  pure ⟨spillSlots, callArgumentBase, returnAddressSlot, atomicResultSlot, contextSlot, stackMapBase,
    totalSlots⟩

variable {f isFallback} {vectorTemporary : Bool} {kMaximumStackSize : Nat} {tooLarge : String}
  {spillSlots : Nat} {frame : StraightFrame}

/-- A frame that is accepted has room for the arguments of each fallback. -/
lemma room_straightFrame (hsize : kMaximumStackSize < 2 ^ 64)
    (h : straightFrame f isFallback vectorTemporary kMaximumStackSize tooLarge spillSlots = .ok frame)
    {n : Node} (hn : n ∈ f.nodes) {o : AtomicOpcode} (ho : n.opcode = .op (.atomic o)) :
    Room spillSlots frame.callArgumentBase frame.atomicResultSlot
      (isFallback n (.atomic o) = true) := by
  simp only [straightFrame, require_bind_eq_ok, pure_eq_ok] at h
  obtain ⟨hslots, rfl⟩ := h
  refine ⟨Nat.le_add_right _ _, ?_, fun hfallback => ?_⟩
  · dsimp only
    split_ifs at hslots <;> omega
  · have hoperation : Opcode.operation? n.opcode = some (.atomic o) := by rw [ho]; rfl
    obtain ⟨hmaximum, -⟩ := le_maximum_callsOf hn hoperation hfallback
    dsimp only
    omega

end straight

/-! ## Control-flow graphs -/

section controlFlow

variable (f : ControlFlowFunction) (isFallback : ControlNode → Operation → Bool)

/-- The frame of a control-flow graph, with a vector behind everything. -/
def controlFlowFrameWithVector (hasVectorOperations : Bool) (kMaximumStackSize : Nat)
    (tooLarge : String) (stackSlots : Nat) : Except Status ControlFlowFrame := do
  let hasContextOperations := f.nodes.any fun node => isContextOperation node.opcode
  let calls := callsOf ControlOpcode.operation? isFallback f.nodes
  let hasAtomicFallback := callsFallback ControlOpcode.operation? isFallback f.nodes
  let frameSlotBase := spillSlots f stackSlots
  let contextSlot := frameSlotBase + f.frameSlots.length
  let callArgumentBase := contextSlot + hasContextOperations.toNat
  let returnAddressSlot := callArgumentBase + calls.foldl max 0
  let atomicResultSlot := returnAddressSlot + (!calls.isEmpty).toNat
  let scalarTotalSlots := atomicResultSlot + hasAtomicFallback.toNat
  let totalSlots :=
    if hasVectorOperations then (scalarTotalSlots + 1) / 2 * 2 + 2 else scalarTotalSlots
  require ((totalSlots * 8 + 15) / 16 * 16 ≤ kMaximumStackSize) ⟨.resourceExhausted, tooLarge, 0⟩
  pure ⟨frameSlotBase, contextSlot, callArgumentBase, returnAddressSlot, atomicResultSlot, totalSlots⟩

variable {f isFallback} {hasVectorOperations : Bool} {kMaximumStackSize : Nat} {tooLarge : String}
  {stackSlots : Nat} {frame : ControlFlowFrame} {n : ControlNode} {o : AtomicOpcode}

/-- A frame that is accepted has room for the arguments of each fallback. -/
lemma room_controlFlowFrameWithVector (hsize : kMaximumStackSize < 2 ^ 64)
    (h : controlFlowFrameWithVector f isFallback hasVectorOperations kMaximumStackSize tooLarge
      stackSlots = .ok frame) (hn : n ∈ f.nodes) (ho : n.opcode = .op (.atomic o)) :
    Room stackSlots frame.callArgumentBase frame.atomicResultSlot
      (isFallback n (.atomic o) = true) := by
  simp only [controlFlowFrameWithVector, require_bind_eq_ok, pure_eq_ok] at h
  obtain ⟨hslots, rfl⟩ := h
  refine ⟨?_, ?_, fun hfallback => ?_⟩
  · have hspill : stackSlots ≤ spillSlots f stackSlots := le_spillSlots
    dsimp only
    omega
  · dsimp only
    split_ifs at hslots <;> omega
  · have hoperation : ControlOpcode.operation? n.opcode = some (.atomic o) := by rw [ho]; rfl
    obtain ⟨hmaximum, -⟩ := le_maximum_callsOf hn hoperation hfallback
    dsimp only
    omega

/-- A frame that is accepted has room for the arguments of each fallback. -/
lemma room_controlFlowFrame {useLseAtomics : Bool} {size : Nat}
    (h : (controlFlowFrame f useLseAtomics stackSlots).stackSize = .ok size) (hn : n ∈ f.nodes)
    (ho : n.opcode = .op (.atomic o)) :
    Room stackSlots (controlFlowFrame f useLseAtomics stackSlots).callArgumentBase
      (controlFlowFrame f useLseAtomics stackSlots).atomicResultSlot
      (isAtomicFallback useLseAtomics n.opcode = true) := by
  obtain ⟨hslots, -⟩ := require_bind_eq_ok.mp h
  simp only [controlFlowFrame, ControlFlowFrame.kMaximumStackSize] at hslots ⊢
  refine ⟨?_, by omega, fun hfallback => ?_⟩
  · have hspill : stackSlots ≤ spillSlots f stackSlots := le_spillSlots
    omega
  · have hcalled : calledArguments useLseAtomics n = some kAtomicFallbackArgumentCount := by
      rw [calledArguments, if_neg (by rw [ho]; simp), if_pos hfallback]
    have hmaximum : kAtomicFallbackArgumentCount ≤
        (f.nodes.filterMap (calledArguments useLseAtomics)).foldl max 0 :=
      le_foldl_max_of_mem (fun count => count) (List.mem_filterMap.mpr ⟨n, hn, hcalled⟩) 0
    omega

end controlFlow

/-! ## The machines -/

namespace AArch64

/-- The largest frame the back end addresses. -/
def kMaximumStackSize : Nat := 4080

/-- The frame of a straight-line function. -/
def straightFrame (f : Function) (useLseAtomics : Bool) (spillSlots : Nat) :
    Except Status StraightFrame :=
  Jit.straightFrame f (fun _ o => isAtomicFallback useLseAtomics (.op o)) false kMaximumStackSize
    "AArch64 runtime-call frame exceeds the backend limit" spillSlots

end AArch64

namespace RiscV

/-- The largest frame the back end addresses. -/
def kMaximumStackSize : Nat := 2032

/-- Narrow cells and compare-exchanges need the fallback. -/
def isAtomicFallback {Op : Type} (t : SideTables) (n : NodeOf Op) : Operation → Bool
  | .atomic o =>
      decide (memoryWidthBytes (t.atomicAccesses.getD n.atomicAccess.toNat {}).memory.width < 4) ||
        o == .compareExchange
  | _ => false

/-- `is_vector_opcode`: vector accesses, and the opcodes from the constant to the widening. -/
def isVectorOperation : Operation → Bool
  | .memory .loadVector | .memory .storeVector => true
  | .vectorConstant | .vectorSplat | .vectorExtractLane | .vectorInsertLane | .vectorUnary => true
  | .vectorBinary | .vectorCompare | .vectorSelect | .vectorLaneSignMask | .vectorShuffle => true
  | .vectorWiden => true
  | _ => false

/-- The frame of a straight-line function. -/
def straightFrame (f : Function) (spillSlots : Nat) : Except Status StraightFrame :=
  Jit.straightFrame f (isAtomicFallback f.toSideTables)
    (f.nodes.any fun n => n.opcode.operation?.any isVectorOperation) kMaximumStackSize
    "RISC-V runtime-call frame exceeds the backend limit" spillSlots

/-- The frame of a graph. -/
def controlFlowFrame (f : ControlFlowFunction) (stackSlots : Nat) : Except Status ControlFlowFrame :=
  controlFlowFrameWithVector f (isAtomicFallback f.toSideTables)
    (f.nodes.any fun n => n.opcode.operation?.any isVectorOperation) kMaximumStackSize
    "RISC-V CFG spill frame exceeds the backend limit" stackSlots

end RiscV

end UniJit.Jit
