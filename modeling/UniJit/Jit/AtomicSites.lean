import UniJit.Ir.AtomicBuilder
import UniJit.Ir.InterpreterAgreement
import UniJit.Jit.AArch64AtomicRuns
import UniJit.Jit.CallFrames
import UniJit.Jit.RiscVAtomicRuns
import UniJit.Jit.SavedRegisters

/-!
# Where atomic operations are emitted

The four code generators (straight lines and control-flow graphs, for AArch64 and for RISC-V) emit
an atomic operation in the same way: they allocate, lay out a frame, and save and restore the
registers that are used behind the operation. `EmittedAtomic` is what is particular to one
operation, and `ActsOnce` what is claimed of its code.

The hypotheses of the two backends are met at each of these places: what is saved is `Savable`, the
frame has `Room`, and the verifier makes every access as aligned as it is wide.
-/

namespace UniJit.Jit

open UniJit.Lib.MachineCode (Effect)
open UniJit.Ir hiding Instruction
open UniJit.Lib UniJit.Lib.SharedMemory UniJit.Lib.CallMachine UniJit.Lib.Sequences UniJit.Runtime

/-! ## Saving and restoring -/

section saving

variable {I : Type}

/-- A loop over some values that emits for each at most one instruction. -/
lemma forM_emit {α β : Type} {h : α → Option β} {g : β → I} {body : α → Assembly I Unit}
    (hbody : ∀ v, body v = emitAll ((h v).toList.map g)) (as : List α) :
    as.forM body = emitAll ((as.filterMap h).map g) := by
  induction as with
  | nil => rfl
  | cons v as ih =>
      have hcons : (v :: as).forM body = body v >>= fun _ => as.forM body := rfl
      rw [hcons, ih, hbody]
      cases hv : h v with
      | none =>
          rw [List.filterMap_cons_none hv]
          rfl
      | some l =>
          rw [List.filterMap_cons_some hv, List.map_cons]
          rfl

section straight

variable (f : Function) (a : RegisterAllocation)

/-- Emit something for every register that is used behind the call: the loop of
`save_live_across_call` and of `restore_live_across_call`. -/
def forLiveAcrossCall (emitValue : LiveRegister → Assembly I Unit) (callIndex : Nat) :
    Assembly I Unit :=
  (List.range callIndex).forM fun v =>
    match (a.location v).registerIndex with
    | none => pure ()
    | some register =>
        if a.lastUses.getD v 0 ≤ callIndex then pure ()
        else emitValue ⟨nodeType f v, register, (a.location v).spillSlot.getD 0⟩

/-- Emitting for each live register emits the list of them. -/
lemma forLiveAcrossCall_eq (g : LiveRegister → I) (callIndex : Nat) :
    forLiveAcrossCall f a (fun l => emit (g l)) callIndex =
      emitAll ((liveRegisters f a callIndex).map g) := by
  unfold forLiveAcrossCall liveRegisters
  refine forM_emit (fun v => ?_) _
  cases (a.location v).registerIndex with
  | none => rfl
  | some register =>
      rw [Option.bind_some]
      dsimp only
      split_ifs <;> rfl

end straight

section controlFlow

variable (f : ControlFlowFunction) (a : ControlFlowRegisterAllocation)

/-- The registers of the values that are recorded at a call, as the emitter looks them up in the
current block. There is no encoding of a register that is missing. -/
def recordedRegisters (call : Value) (currentBlock : Nat) : Option (List LiveRegister) :=
  (a.liveAcrossCalls.getD call.index []).mapM fun v =>
    (controlRegister a v currentBlock).map fun register =>
      ⟨f.valueType v, register, (a.slot v.index).getD 0⟩

variable {f a} {wordRegisterCount simdRegisterCount : Nat} {requirements : StackMapRequirements}
  {reuseFinalFloatLhs : Bool} {vectorMode : VectorRegisterMode}

/-- A traversal that always succeeds is a map. -/
lemma mapM_some {α β : Type} {g : α → Option β} {g' : α → β} (as : List α)
    (h : ∀ v ∈ as, g v = some (g' v)) : as.mapM g = some (as.map g') := by
  induction as with
  | nil => rfl
  | cons v as ih =>
      rw [List.mapM_cons, h v List.mem_cons_self, ih fun u hu => h u (List.mem_cons_of_mem v hu)]
      rfl

/-- Every recorded value has a register in the block of the call. -/
lemma recordedRegisters_eq
    (h : allocateControlFlowRegisters f wordRegisterCount simdRegisterCount requirements
      reuseFinalFloatLhs vectorMode = .ok a) (howned : f.Owned) {b i : Nat} {block : BasicBlock}
    {call : Value} (hblock : f.blocks[b]? = some block) (hi : block.instructions[i]? = some call)
    (hcall : isCallNode f call = true) :
    recordedRegisters f a call b = some (controlLiveRegisters f a call) := by
  obtain ⟨hlists, -, -⟩ := recorded_of_allocate h hblock hi hcall howned
  refine mapM_some _ fun v hv => ?_
  obtain ⟨p, -, hinstruction, hreg, -⟩ := (hlists.2 v).mp hv
  obtain ⟨-, hlt⟩ := howned.valid hblock hinstruction
  have howner := ((sound_of_allocateControlFlowRegisters howned h).owners v.index hlt b).mpr
    ⟨p, block, v, hblock, hinstruction, rfl⟩
  rw [registerAt, hinstruction] at hreg
  obtain ⟨register, hregister⟩ := Option.isSome_iff_exists.mp hreg
  have hsource : sourceInRegister a b v := by
    refine ⟨howner, ?_⟩
    rw [ControlFlowRegisterAllocation.register, show a.registerIndices.getD v.index none =
      some register from hregister]
    exact Option.some_ne_none register
  have hfound : controlRegister a v b = some register := by
    rw [controlRegister, if_pos hsource]
    exact hregister
  rw [hfound, controlLiveRegister, show a.register v.index = some register from hregister]
  rfl

end controlFlow

end saving

/-! ## Emitted operations -/

/-- An atomic operation that a code generator emits. -/
structure EmittedAtomic (I : Type) where
  operation : AtomicOpcode
  width : Nat
  /-- The registers that are saved and restored. -/
  live : List LiveRegister
  /-- The registers whose values are used behind the operation. -/
  Needed : LiveRegister → Prop
  callArgumentBase : Nat
  atomicResultSlot : Nat
  helper : Word
  emitter : Assembly I (Except Status Unit)

/-- **An emitted operation acts once**: for all operands, every order of steps and every pattern of
failing stores, the code that the emitter leaves behind does the operation, and every register that
is needed is among those that keep their values. The registers of a machine are, in this order, that
of the result and those of the address, the operand and the desired value. -/
def EmittedAtomic.ActsOnce {z : Register} {w : Nat} {I : Type} (a : EmittedAtomic I)
    (step : Environment w → I → State z w → Effect (State z w)) (home : LiveRegister → Home)
    (result address value desired : Register) : Prop :=
  ∀ code code', a.emitter.run code = pure (.ok (), code') →
    (∃ emitted, code' = code ++ emitted ∧
      ∀ (host : Host) (lockSubwords : Bool) (e : Environment w) (s : State z w),
        host.littleEndian = true → e.routine a.helper = fallbackRoutine host lockSubwords →
        (s.registers address).toNat % a.width = 0 →
        Completes (step e) emitted 0 s
          (Operates a.operation a.width (a.live.map home) a.callArgumentBase a.atomicResultSlot
            result (s.registers address) (s.registers value) (s.registers desired) s)) ∧
    ∀ l, a.Needed l → l ∈ a.live

/-- The register-resident values of a straight line that are used behind a position. -/
def neededBehind (f : Function) (requirements : StackMapRequirements) (a : RegisterAllocation)
    (index : Nat) (l : LiveRegister) : Prop :=
  ∃ v p, v < index ∧ index < p ∧ UsedAt f requirements v p ∧
    (a.location v).registerIndex = some l.register ∧ l.type = nodeType f v ∧
    l.slot = (a.location v).spillSlot.getD 0

/-- The register-resident values of a block that are used in it behind a position. -/
def neededInBlock (f : ControlFlowFunction) (requirements : StackMapRequirements)
    (a : ControlFlowRegisterAllocation) (b : Nat) (block : BasicBlock) (index : Nat)
    (l : LiveRegister) : Prop :=
  ∃ p q v, p < index ∧ block.instructions[p]? = some v ∧ (a.register v.index).isSome ∧ index < q ∧
    UsedInBlock f requirements b v.index q ∧ l = controlLiveRegister f a v

/-- The access of an atomic node. -/
def atomicAccessOf {Op : Type} (t : SideTables) (n : NodeOf Op) : AtomicAccessDescriptor :=
  t.atomicAccesses.getD n.atomicAccess.toNat {}

/-- A verified access is of one, two, four or eight bytes. -/
lemma width_of_typed {Op : Type} {t : SideTables} {Γ : Value → Option ValueType} {n : NodeOf Op}
    {o : AtomicOpcode} (h : Typed t Γ (.atomic o) n) :
    memoryWidthBytes (atomicAccessOf t n).memory.width ∈ [1, 2, 4, 8] := by
  obtain ⟨access, haccess, hok, -, -⟩ := h
  have hget : atomicAccessOf t n = access := by rw [atomicAccessOf, List.getD, haccess]; rfl
  have hnarrow : access.memory.width ≠ .k128 := hok.2.1
  rw [hget]
  cases hwidth : access.memory.width <;> first | decide | exact absurd hwidth hnarrow

/-- The operations of a verified function are typed. -/
lemma typed_of_verify {f : Function} {index : Nat} {n : Node} {o : Operation}
    (h : f.verify = .ok ()) (hn : f.nodes[index]? = some n) (ho : n.opcode = .op o) :
    Typed f.toSideTables (f.earlier index) o n := by
  have hnode := (Function.verify_eq_ok.mp h).node index n hn
  by_cases hindex : index < f.parameterCount
  · have hopcode := (hnode.parameter hindex).1
    rw [ho] at hopcode
    cases hopcode
  · obtain ⟨o', ho', htyped, -⟩ := hnode.operation (not_lt.mp hindex)
    obtain rfl : o = o' := Opcode.op.inj (ho.symm.trans ho')
    exact htyped

/-- An instruction of a block is a node. -/
lemma getElem?_nodeOf {f : ControlFlowFunction} (h : f.Owned) {b i : Nat} {block : BasicBlock}
    {v : Value} (hblock : f.blocks[b]? = some block) (hv : block.instructions[i]? = some v) :
    f.nodes[v.index]? = some (nodeOf f v) := by
  have hlt := (h.valid hblock hv).2
  rw [nodeOf, List.getD_eq_getElem _ _ hlt, List.getElem?_eq_getElem hlt]

/-- The allocator takes every operation that retries for a call. -/
lemma mayCall_of_retries {Op : Type} {t : SideTables} {n : NodeOf Op} {o : AtomicOpcode}
    (h : Retries o) : isCallLike t n (.atomic o) = true := by
  cases o with
  | load => exact absurd rfl h.1
  | store => exact absurd rfl h.2
  | exchange => rfl
  | compareExchange => rfl
  | fetchAdd => rfl
  | fetchAnd => rfl
  | fetchOr => rfl
  | fetchXor => rfl

/-- An operation that retries is a call to the allocator. -/
lemma isCallAt_of_retries {f : Function} {index : Nat} {n : Node} {o : AtomicOpcode}
    (hn : f.nodes[index]? = some n) (ho : n.opcode = .op (.atomic o)) (h : Retries o) :
    isCallAt f index = true := by
  rw [isCallAt, hn, Option.any_some, ho]
  exact mayCall_of_retries h

/-- An operation that retries has a fallback. -/
lemma isAtomicFallback_of_retries {o : AtomicOpcode} (h : Retries o) :
    isAtomicFallback false (.op (.atomic o)) = true := by
  cases o with
  | load => exact absurd rfl h.1
  | store => exact absurd rfl h.2
  | exchange => rfl
  | compareExchange => rfl
  | fetchAdd => rfl
  | fetchAnd => rfl
  | fetchOr => rfl
  | fetchXor => rfl

/-! ## AArch64 -/

namespace AArch64

open UniJit.Lib.AArch64Atomics (Instruction step)
open Atomics (emitAtomicOperation atomicRegisters items)

/-- The registers that AArch64 allocates. -/
def allocationRegisters : AllocationRegisters 31 128 where
  words := kAllocationRegisters
  floats := kFloatAllocationRegisters
  vectorMode := .sharedWithFloat64
  words_nodup := by decide
  floats_nodup := by decide
  notMem_words := by decide
  floats_fit := by decide
  vectors_fit := fun _ => le_rfl

/-- Where `save_live_across_call` puts a value: a vector in a pair of slots. -/
def liveHome (l : LiveRegister) : Home :=
  if isVectorValueType l.type then .vector (kFloatAllocationRegisters.getD l.register 31) (l.slot / 2)
  else if l.type = .float64 then .float (kFloatAllocationRegisters.getD l.register 31) l.slot
  else .word (kAllocationRegisters.getD l.register 31) l.slot

/-- **The places where AArch64 emits an atomic operation** without the atomic instructions of the
system extensions. -/
inductive Emits : EmittedAtomic Instruction → Prop
  | straight {f : Function} {requirements : StackMapRequirements} {a : RegisterAllocation}
      {frame : StraightFrame} {index : Nat} {n : Node} {o : AtomicOpcode} (helper : Word)
      (verified : f.verify = .ok ())
      (allocated : allocateLinearScan f kAllocationRegisters.length kFloatAllocationRegisters.length
        requirements .sharedWithFloat64 (kMaximumStackSize / 8) = .ok a)
      (framed : straightFrame f false a.spillSlots = .ok frame) (node : f.nodes[index]? = some n)
      (opcode : n.opcode = .op (.atomic o)) (retries : Retries o) :
      Emits
        { operation := o
          width := memoryWidthBytes (atomicAccessOf f.toSideTables n).memory.width
          live := liveRegisters f a index
          Needed := neededBehind f requirements a index
          callArgumentBase := frame.callArgumentBase
          atomicResultSlot := frame.atomicResultSlot
          helper := helper
          emitter := emitAtomicOperation o (atomicAccessOf f.toSideTables n) false helper
            frame.callArgumentBase frame.atomicResultSlot
            (forLiveAcrossCall f a (fun l => emit (.store (liveHome l))) index)
            (forLiveAcrossCall f a (fun l => emit (.load (liveHome l))) index) }
  | controlFlow {f : ControlFlowFunction} {requirements : StackMapRequirements}
      {a : ControlFlowRegisterAllocation} {b index size : Nat} {block : BasicBlock} {v : Value}
      {live : List LiveRegister} {o : AtomicOpcode} (helper : Word)
      (verified : f.verify = .ok ())
      (allocated : allocateControlFlowRegisters f kAllocationRegisters.length
        kFloatAllocationRegisters.length requirements false .sharedWithFloat64 = .ok a)
      (framed : (controlFlowFrame f false a.stackSlots).stackSize = .ok size)
      (inBlocks : f.blocks[b]? = some block) (inBlock : block.instructions[index]? = some v)
      (opcode : (nodeOf f v).opcode = .op (.atomic o)) (retries : Retries o)
      (recorded : recordedRegisters f a v b = some live) :
      Emits
        { operation := o
          width := memoryWidthBytes (atomicAccessOf f.toSideTables (nodeOf f v)).memory.width
          live := live
          Needed := neededInBlock f requirements a b block index
          callArgumentBase := (controlFlowFrame f false a.stackSlots).callArgumentBase
          atomicResultSlot := (controlFlowFrame f false a.stackSlots).atomicResultSlot
          helper := helper
          emitter := emitAtomicOperation o (atomicAccessOf f.toSideTables (nodeOf f v)) false helper
            (controlFlowFrame f false a.stackSlots).callArgumentBase
            (controlFlowFrame f false a.stackSlots).atomicResultSlot
            (emitAll (live.map fun l => .store (liveHome l)))
            (emitAll (live.map fun l => .load (liveHome l))) }

/-- Homes that can be saved, in a frame with room, let an operation act once. -/
lemma actsOnce_of_savable {live : List LiveRegister} {slots base resultSlot : Nat} {fallback : Prop}
    {o : AtomicOpcode} {access : AtomicAccessDescriptor} {helper : Word}
    {Needed : LiveRegister → Prop}
    (hsavable : ∀ base, slots ≤ base → Savable .sharedWithFloat64 kAllocationRegisters.length
      kFloatAllocationRegisters.length base live)
    (hroom : Room slots base resultSlot fallback) (hfallback : fallback) (ho : Retries o)
    (hwidth : memoryWidthBytes access.memory.width ∈ [1, 2, 4, 8])
    (hneeded : ∀ l, Needed l → l ∈ live) :
    EmittedAtomic.ActsOnce (I := Instruction)
      { operation := o, width := memoryWidthBytes access.memory.width, live := live
        Needed := Needed, callArgumentBase := base, atomicResultSlot := resultSlot, helper := helper
        emitter := emitAtomicOperation o access false helper base resultSlot
          (emitAll (live.map fun l => .store (liveHome l)))
          (emitAll (live.map fun l => .load (liveHome l))) }
      step liveHome kReturnRegister kAtomicAddressRegister kAtomicOperandRegister
      kAtomicDesiredRegister := by
  intro code code' hrun
  have hhomes : Homes 31 128 atomicRegisters base (live.map liveHome) :=
    AllocationRegisters.homes (R := allocationRegisters) (hsavable base hroom.behind) (by decide)
  have hmapped : (emitAtomicOperation o access false helper base resultSlot
      (emitAll ((live.map liveHome).map .store)) (emitAll ((live.map liveHome).map .load))).run code =
      pure (.ok (), code') := by
    rw [List.map_map, List.map_map]
    exact hrun
  have hemitted := Atomics.run_emitAtomicOperation code helper (live.map liveHome) base resultSlot
    ho hmapped
  refine ⟨⟨_, hemitted, ?_⟩, hneeded⟩
  intro host lockSubwords e s hlittle hroutine haligned
  exact Atomics.completes_items hlittle hroutine hwidth ho haligned hhomes hroom.reached
    (hroom.arguments hfallback)

/-- **AArch64 emits operations that act once.** -/
theorem Emits.actsOnce {a : EmittedAtomic Instruction} (h : Emits a) :
    a.ActsOnce step liveHome kReturnRegister kAtomicAddressRegister kAtomicOperandRegister
      kAtomicDesiredRegister := by
  cases h with
  | @straight f requirements a frame index n o helper verified allocated framed node opcode
      retries =>
      have htyped := typed_of_verify verified node opcode
      have hcall := isCallAt_of_retries node opcode retries
      have hlt := (List.getElem?_eq_some_iff.mp node).1
      have hsound := allocateLinearScan_sound f _ _ _ _ _ a verified allocated
      rw [forLiveAcrossCall_eq, forLiveAcrossCall_eq]
      refine actsOnce_of_savable
        (fun base hbase => savable_straight allocated hsound hcall hlt hbase)
        (room_straightFrame (by decide) framed (List.mem_of_getElem? node) opcode)
        (isAtomicFallback_of_retries retries) retries (width_of_typed htyped) ?_
      · rintro l ⟨v, p, hv, hp, hused, hregister, htype, hslot⟩
        have hmem := saved_of_usedAt allocated hlt.le hv hp hused hregister
        rwa [← htype, ← hslot] at hmem
  | @controlFlow f requirements a b index size block v live o helper verified allocated framed
      inBlocks inBlock opcode retries recorded =>
      have howned := ControlFlowFunction.verify_owned verified
      have hnode := List.mem_of_getElem? (getElem?_nodeOf howned inBlocks inBlock)
      obtain ⟨Γ, htyped⟩ :=
        (ControlFlowFunction.verify_verified verified).typed_of_mem hnode opcode
      have hcall : isCallNode f v = true := by
        rw [isCallNode, opcode]
        exact mayCall_of_retries retries
      rw [recordedRegisters_eq allocated howned inBlocks inBlock hcall] at recorded
      obtain rfl := Option.some.inj recorded
      refine actsOnce_of_savable
        (fun base hbase => savable_controlFlow allocated inBlocks inBlock hcall howned hbase)
        (room_controlFlowFrame framed hnode opcode)
        (by rw [opcode]; exact isAtomicFallback_of_retries retries) retries
        (width_of_typed htyped) ?_
      rintro l ⟨p, q, u, hp, hu, hregister, hq, hused, rfl⟩
      exact saved_of_usedInBlock allocated inBlocks inBlock hcall howned hp hu hregister hq hused

end AArch64

/-! ## RISC-V -/

namespace RiscV

open UniJit.Lib.RiscVAtomics (Instruction step)
open Atomics (emitAtomicOperation atomicRegisters items)

/-- The registers that RISC-V allocates; vectors stay in the frame. -/
def allocationRegisters : AllocationRegisters 0 64 where
  words := kAllocationRegisters
  floats := kFloatAllocationRegisters
  vectorMode := .stackOnly
  words_nodup := by decide
  floats_nodup := by decide
  notMem_words := by decide
  floats_fit := le_rfl
  vectors_fit := fun h => by cases h

/-- Where `save_live_across_call` puts a value. -/
def liveHome (l : LiveRegister) : Home :=
  if l.type = .float64 then .float (kFloatAllocationRegisters.getD l.register 0) l.slot
  else .word (kAllocationRegisters.getD l.register 0) l.slot

/-- No vector is in a register. -/
lemma liveHome_eq {l : LiveRegister} {bank : RegisterBank}
    (hbank : registerBank l.type .stackOnly = some bank) : liveHome l = allocationRegisters.home l := by
  unfold liveHome AllocationRegisters.home
  rcases AllocationRegisters.valueType_cases l.type with htype | htype | ⟨hvector, hword, hfloat⟩
  · rw [htype]
    rfl
  · rw [htype]
    rfl
  · rw [registerBank, if_neg hword, if_neg hfloat] at hbank
    cases hbank

/-- **The places where RISC-V emits an atomic operation.** -/
inductive Emits : EmittedAtomic Instruction → Prop
  | straight {f : Function} {requirements : StackMapRequirements} {a : RegisterAllocation}
      {frame : StraightFrame} {index : Nat} {n : Node} {o : AtomicOpcode} (helper : Word)
      (verified : f.verify = .ok ())
      (allocated : allocateLinearScan f kAllocationRegisters.length kFloatAllocationRegisters.length
        requirements .stackOnly (kMaximumStackSize / 8) = .ok a)
      (framed : straightFrame f a.spillSlots = .ok frame) (node : f.nodes[index]? = some n)
      (opcode : n.opcode = .op (.atomic o)) (retries : Retries o) :
      Emits
        { operation := o
          width := memoryWidthBytes (atomicAccessOf f.toSideTables n).memory.width
          live := liveRegisters f a index
          Needed := neededBehind f requirements a index
          callArgumentBase := frame.callArgumentBase
          atomicResultSlot := frame.atomicResultSlot
          helper := helper
          emitter := emitAtomicOperation o (atomicAccessOf f.toSideTables n) helper
            frame.callArgumentBase frame.atomicResultSlot
            (forLiveAcrossCall f a (fun l => emit (.store (liveHome l))) index)
            (forLiveAcrossCall f a (fun l => emit (.load (liveHome l))) index) }
  | controlFlow {f : ControlFlowFunction} {requirements : StackMapRequirements}
      {a : ControlFlowRegisterAllocation} {frame : ControlFlowFrame} {b index : Nat}
      {block : BasicBlock} {v : Value} {live : List LiveRegister} {o : AtomicOpcode} (helper : Word)
      (verified : f.verify = .ok ())
      (allocated : allocateControlFlowRegisters f kAllocationRegisters.length
        kFloatAllocationRegisters.length requirements false .stackOnly = .ok a)
      (framed : controlFlowFrame f a.stackSlots = .ok frame)
      (inBlocks : f.blocks[b]? = some block) (inBlock : block.instructions[index]? = some v)
      (opcode : (nodeOf f v).opcode = .op (.atomic o)) (retries : Retries o)
      (recorded : recordedRegisters f a v b = some live) :
      Emits
        { operation := o
          width := memoryWidthBytes (atomicAccessOf f.toSideTables (nodeOf f v)).memory.width
          live := live
          Needed := neededInBlock f requirements a b block index
          callArgumentBase := frame.callArgumentBase
          atomicResultSlot := frame.atomicResultSlot
          helper := helper
          emitter := emitAtomicOperation o (atomicAccessOf f.toSideTables (nodeOf f v)) helper
            frame.callArgumentBase frame.atomicResultSlot
            (emitAll (live.map fun l => .store (liveHome l)))
            (emitAll (live.map fun l => .load (liveHome l))) }

/-- Homes that can be saved, in a frame with room if there is a fallback, let an operation act
once. -/
lemma actsOnce_of_savable {live : List LiveRegister} {slots base resultSlot : Nat}
    {o : AtomicOpcode} {access : AtomicAccessDescriptor} {helper : Word}
    {Needed : LiveRegister → Prop}
    (hsavable : ∀ base, slots ≤ base → Savable .stackOnly kAllocationRegisters.length
      kFloatAllocationRegisters.length base live)
    (hroom : Room slots base resultSlot
      (memoryWidthBytes access.memory.width < 4 ∨ o = .compareExchange)) (ho : Retries o)
    (hwidth : memoryWidthBytes access.memory.width ∈ [1, 2, 4, 8])
    (hneeded : ∀ l, Needed l → l ∈ live) :
    EmittedAtomic.ActsOnce (I := Instruction)
      { operation := o, width := memoryWidthBytes access.memory.width, live := live
        Needed := Needed, callArgumentBase := base, atomicResultSlot := resultSlot, helper := helper
        emitter := emitAtomicOperation o access helper base resultSlot
          (emitAll (live.map fun l => .store (liveHome l)))
          (emitAll (live.map fun l => .load (liveHome l))) }
      step liveHome kArgumentAndReturn kAtomicAddress kAtomicOperand kAtomicDesired := by
  intro code code' hrun
  have hsaved := hsavable base hroom.behind
  have hmap : live.map liveHome = live.map allocationRegisters.home := by
    refine List.map_congr_left fun l hl => ?_
    obtain ⟨bank, hbank, -⟩ := hsaved.register l hl
    exact liveHome_eq hbank
  have hhomes : Homes 0 64 atomicRegisters base (live.map liveHome) := by
    rw [hmap]
    exact AllocationRegisters.homes (R := allocationRegisters) hsaved (by decide)
  have hmapped : (emitAtomicOperation o access helper base resultSlot
      (emitAll ((live.map liveHome).map .store)) (emitAll ((live.map liveHome).map .load))).run code =
      pure (.ok (), code') := by
    rw [List.map_map, List.map_map]
    exact hrun
  have hemitted := Atomics.run_emitAtomicOperation code helper (live.map liveHome) base resultSlot
    ho hmapped
  refine ⟨⟨_, hemitted, ?_⟩, hneeded⟩
  intro host lockSubwords e s hlittle hroutine haligned
  exact Atomics.completes_items hlittle hroutine hwidth ho haligned hhomes hroom.reached
    hroom.arguments

/-- The frame has room where the code needs it. -/
lemma room_congr {Op : Type} {t : SideTables} {n : NodeOf Op} {slots base resultSlot : Nat}
    {o : AtomicOpcode} (h : Room slots base resultSlot (isAtomicFallback t n (.atomic o) = true)) :
    Room slots base resultSlot
      (memoryWidthBytes (atomicAccessOf t n).memory.width < 4 ∨ o = .compareExchange) := by
  refine ⟨h.behind, h.reached, fun hneeds => h.arguments ?_⟩
  rw [isAtomicFallback, Bool.or_eq_true, decide_eq_true_eq, beq_iff_eq]
  exact hneeds

/-- **RISC-V emits operations that act once.** -/
theorem Emits.actsOnce {a : EmittedAtomic Instruction} (h : Emits a) :
    a.ActsOnce step liveHome kArgumentAndReturn kAtomicAddress kAtomicOperand kAtomicDesired := by
  cases h with
  | @straight f requirements a frame index n o helper verified allocated framed node opcode
      retries =>
      have htyped := typed_of_verify verified node opcode
      have hcall := isCallAt_of_retries node opcode retries
      have hlt := (List.getElem?_eq_some_iff.mp node).1
      have hsound := allocateLinearScan_sound f _ _ _ _ _ a verified allocated
      have hroom := room_straightFrame (by decide) framed (List.mem_of_getElem? node) opcode
      rw [forLiveAcrossCall_eq, forLiveAcrossCall_eq]
      refine actsOnce_of_savable
        (fun base hbase => savable_straight allocated hsound hcall hlt hbase) (room_congr hroom)
        retries (width_of_typed htyped) ?_
      rintro l ⟨v, p, hv, hp, hused, hregister, htype, hslot⟩
      have hmem := saved_of_usedAt allocated hlt.le hv hp hused hregister
      rwa [← htype, ← hslot] at hmem
  | @controlFlow f requirements a frame b index block v live o helper verified allocated framed
      inBlocks inBlock opcode retries recorded =>
      have howned := ControlFlowFunction.verify_owned verified
      have hnode := List.mem_of_getElem? (getElem?_nodeOf howned inBlocks inBlock)
      obtain ⟨Γ, htyped⟩ :=
        (ControlFlowFunction.verify_verified verified).typed_of_mem hnode opcode
      have hcall : isCallNode f v = true := by
        rw [isCallNode, opcode]
        exact mayCall_of_retries retries
      have hroom := room_controlFlowFrameWithVector (by decide) framed hnode opcode
      rw [recordedRegisters_eq allocated howned inBlocks inBlock hcall] at recorded
      obtain rfl := Option.some.inj recorded
      refine actsOnce_of_savable
        (fun base hbase => savable_controlFlow allocated inBlocks inBlock hcall howned hbase)
        (room_congr hroom) retries (width_of_typed htyped) ?_
      rintro l ⟨p, q, u, hp, hu, hregister, hq, hused, rfl⟩
      exact saved_of_usedInBlock allocated inBlocks inBlock hcall howned hp hu hregister hq hused

end RiscV

/-! ## The success flag -/

/-- A compare-exchange stores exactly where the observed value is the expected one. -/
lemma isSome_storedWord {n : Nat} (hn : 8 * n ≤ 64) {expected operand : Word} (desired : Word)
    (hoperand : operand = (expected.setWidth (8 * n)).setWidth 64) (old : BitVec (8 * n)) :
    (storedWord n .compareExchange operand desired old).isSome =
      decide (old.setWidth 64 = operand) := by
  have hcut : operand.setWidth (8 * n) = expected.setWidth (8 * n) := by
    rw [hoperand, BitVec.setWidth_setWidth_of_le _ hn, BitVec.setWidth_eq]
  unfold storedWord storedOver
  dsimp only
  rw [hcut, hoperand]
  by_cases hequal : old = expected.setWidth (8 * n)
  · rw [if_pos hequal, decide_eq_true (congrArg _ hequal)]
    rfl
  · rw [if_neg hequal, decide_eq_false fun heq => hequal ((setWidth_inj hn).mp heq)]
    rfl

/-- **Exclusive-loop atomics act exactly once.** Whatever AArch64 without the system extensions and
RISC-V emit for an exchange, a compare-exchange or a fetching operation acts once: it ends after at
most sixteen loads and one call, one access does the operation to the cell, the result is what the
cell held then, and the registers that are needed behind it keep their values. The success flag of a
compare-exchange is then one exactly if the desired value was stored. -/
theorem exclusive_atomics_act_once :
    (∀ a, AArch64.Emits a → a.ActsOnce AArch64Atomics.step AArch64.liveHome AArch64.kReturnRegister
      AArch64.kAtomicAddressRegister AArch64.kAtomicOperandRegister
      AArch64.kAtomicDesiredRegister) ∧
    (∀ a, RiscV.Emits a → a.ActsOnce RiscVAtomics.step RiscV.liveHome RiscV.kArgumentAndReturn
      RiscV.kAtomicAddress RiscV.kAtomicOperand RiscV.kAtomicDesired) ∧
    ∀ (b b' : FunctionBuilder) (byteOffset expected desired observed flag : Value)
      (access : AtomicAccessDescriptor) (site : Nat) (float : FloatUnit) (word : Value → Word),
      b.atomicCompareExchange byteOffset expected desired access site = ((observed, flag), b') →
      flag.valid → access.memory.width ≠ .k128 → b'.function.Computes float word →
      ∃ n, b'.function.NodeAt observed n ∧ n.opcode = .op (.atomic .compareExchange) ∧
        n.lhs = byteOffset ∧ n.auxiliary = desired ∧
        b'.function.atomicAccesses[n.atomicAccess.toNat]? = some access ∧
        ∀ (address : Nat) (t₀ t : Thread) (old : BitVec (8 * memoryWidthBytes access.memory.width)),
          ActsOnce address (storedWord (memoryWidthBytes access.memory.width) .compareExchange
            (word n.rhs) (word desired)) kAtomicExclusiveAttempts t₀ t old →
          word observed = old.setWidth 64 →
          ∃ tried last, t.accesses = t₀.accesses ++ tried ++ [last] ∧ (∀ a ∈ tried, a.Idle) ∧
            word flag = wordOfBool last.stored ∧
            last.after = if last.stored then
              setCell (memoryWidthBytes access.memory.width) last.before address
                ((word desired).setWidth _)
            else last.before := by
  refine ⟨fun a h => h.actsOnce, fun a h => h.actsOnce, ?_⟩
  intro b b' byteOffset expected desired observed flag access site float word hbuilt hflag hnarrow
    hword
  have hwidth : memoryWidthBytes access.memory.width ∈ [1, 2, 4, 8] := by
    cases hcase : access.memory.width <;> first | decide | exact absurd hcase hnarrow
  have hbits : 8 * memoryWidthBytes access.memory.width ≤ 64 := by
    cases hcase : access.memory.width <;> first | decide | exact absurd hcase hnarrow
  obtain ⟨n, hnode, hopcode, hlhs, hauxiliary, haccess, hcompared, hoperand⟩ :=
    atomicCompareExchange_spec hbuilt hflag hwidth hword
  refine ⟨n, hnode, hopcode, hlhs, hauxiliary, haccess, ?_⟩
  rintro address t₀ t old ⟨tried, last, haccesses, hidle, -, hafter, hstored, -, -⟩ hobserved
  have hsome := isSome_storedWord hbits (word desired) hoperand old
  refine ⟨tried, last, haccesses, hidle, ?_, ?_⟩
  · rw [hcompared, hstored, hsome, hobserved]
  · rw [hafter, hstored]
    unfold storedWord storedOver
    dsimp only
    by_cases hequal : old = (word n.rhs).setWidth (8 * memoryWidthBytes access.memory.width)
    · rw [if_pos hequal]
      rfl
    · rw [if_neg hequal]
      rfl

/-! A compare-exchange of a half word, whose flag is returned. The expected word has other bits
above, so that the operand is a value of its own, and lives on behind the operation. -/

/-- An access of four bytes. -/
def flagAccess : AtomicAccessDescriptor where
  memory := { region := 0, width := .k32, alignment := 4 }

/-- The observed value and the flag, and the builder behind them. -/
def flagBuilt : (Value × Value) × FunctionBuilder :=
  (FunctionBuilder.create [.word, .word, .word] 1).atomicCompareExchange (.ofIndex 0) (.ofIndex 1)
    (.ofIndex 2) flagAccess 0

/-- A function that returns whether its compare-exchange succeeded. -/
def flagSample : Function := { flagBuilt.2.function with returnValue := flagBuilt.1.2 }

/-- Its values in registers. -/
def flagAllocation : RegisterAllocation where
  locations := [⟨some 0, none⟩, ⟨some 1, none⟩, ⟨some 2, none⟩, ⟨some 3, none⟩, ⟨some 4, some 0⟩,
    ⟨some 3, none⟩, ⟨some 2, none⟩]
  spillSlots := 1
  lastUses := [5, 4, 5, 4, 6, 6, 7]

/-- The words of a run: the offset, seven with a bit above it, and nine for it. -/
def flagWords (v : Value) : Word :=
  [0, 0x100000007, 9, 0xFFFFFFFF, 7, 7, 1].getD v.index 0

/-- A memory that holds 7 at the flag. -/
def flagMemory : Contents := fun a => if a = 4096 then 7 else 0

/-- The others undo what the thread did; every other conditional store fails. -/
def flagEnvironment (w : Nat) : CallMachine.Environment w where
  interfere := fun _ _ => flagMemory
  fails := fun k => k % 4 = 1
  routine := fun _ => fallbackRoutine sampleHost false
  clobbered := fun _ _ => 0
  clobberedFloats := fun _ _ => 0
  clobberedZero := fun _ => false
  programRelative := 0

/-- The offset, the operand and the desired value, where AArch64 has them. -/
def flagState : AArch64Atomics.State where
  registers := fun r => [0, 0, 4096, 7, 9].getD r 0
  floats := fun _ => 0
  stackPointer := 65536
  frame := fun _ => 0
  thread := { memory := flagMemory }

/-- The same, where RISC-V has them. -/
def flagStateOfRiscV : RiscVAtomics.State where
  registers := fun r => if r = 30 then 4096 else if r = 31 then 7 else if r = 29 then 9 else 0
  floats := fun _ => 0
  stackPointer := 65536
  frame := fun _ => 0
  thread := { memory := flagMemory }

/-- An emission that evaluates to a success. -/
lemma run_of_isOk {I : Type} {m : Assembly I (Except Status Unit)}
    (h : (m.run []).1.isOk = true) : m.run [] = pure (.ok (), (m.run []).2) := by
  cases hrun : (m.run []).1 with
  | ok _ => exact Prod.ext hrun rfl
  | error status =>
      rw [hrun] at h
      cases h

/-- Both back ends emit the compare-exchange, and what they emit acts once; and in a run that leaves
the fallback to exchange, the flag is one. -/
theorem exclusive_atomics_act_once_flagSample :
    (∃ code, Completes (AArch64Atomics.step (flagEnvironment 128)) code 0 flagState
      (Operates .compareExchange 4 [.word 14 0] 1 7 0 4096 7 9 flagState)) ∧
    (∃ code, Completes (RiscVAtomics.step (flagEnvironment 64)) code 0 flagStateOfRiscV
      (Operates .compareExchange 4 [.word 15 0] 1 7 10 4096 7 9 flagStateOfRiscV)) ∧
    ∃ tried last, [(⟨.call, flagMemory, setCell 4 flagMemory 4096 9, true⟩ : Access)] =
        [] ++ tried ++ [last] ∧ (∀ a ∈ tried, a.Idle) ∧
      flagWords flagBuilt.1.2 = wordOfBool last.stored ∧
      last.after = if last.stored then setCell 4 last.before 4096 9 else last.before := by
  have hlive : liveRegisters flagSample flagAllocation 5 = [⟨.word, 4, 0⟩] := by decide +kernel
  have hwidth : memoryWidthBytes (atomicAccessOf flagSample.toSideTables
      (flagSample.nodes.getD 5 { opcode := .parameter })).memory.width = 4 := by decide +kernel
  refine ⟨?_, ?_, ?_⟩
  · have hemits : AArch64.Emits _ :=
      @AArch64.Emits.straight flagSample [] flagAllocation ⟨1, 1, 6, 7, 8, 9, 16⟩ 5
        (flagSample.nodes.getD 5 { opcode := .parameter }) .compareExchange 0x1000
        (by decide +kernel) (by decide +kernel) (by decide +kernel) (by decide +kernel)
        (by decide +kernel) (by decide)
    obtain ⟨⟨emitted, -, hruns⟩, -⟩ :=
      exclusive_atomics_act_once.1 _ hemits [] _ (run_of_isOk (by decide +kernel))
    have hcompletes := hruns sampleHost false (flagEnvironment 128) flagState rfl rfl
    rw [hwidth, hlive] at hcompletes
    exact ⟨emitted, hcompletes (by decide)⟩
  · have hemits : RiscV.Emits _ :=
      @RiscV.Emits.straight flagSample [] flagAllocation ⟨1, 1, 6, 7, 8, 9, 16⟩ 5
        (flagSample.nodes.getD 5 { opcode := .parameter }) .compareExchange 0x1000
        (by decide +kernel) (by decide +kernel) (by decide +kernel) (by decide +kernel)
        (by decide +kernel) (by decide)
    obtain ⟨⟨emitted, -, hruns⟩, -⟩ :=
      exclusive_atomics_act_once.2.1 _ hemits [] _ (run_of_isOk (by decide +kernel))
    have hcompletes := hruns sampleHost false (flagEnvironment 64) flagStateOfRiscV rfl rfl
    rw [hwidth, hlive] at hcompletes
    exact ⟨emitted, hcompletes (by decide)⟩
  · have hbuilt : (FunctionBuilder.create [.word, .word, .word] 1).atomicCompareExchange
        (.ofIndex 0) (.ofIndex 1) (.ofIndex 2) flagAccess 0 =
        ((.ofIndex 5, .ofIndex 6), flagBuilt.2) := by decide +kernel
    have hnodes : flagBuilt.2.function.nodes =
        [{ opcode := .parameter }, { opcode := .parameter, immediate := 1 },
          { opcode := .parameter, immediate := 2 },
          { opcode := .op .constant, immediate := 0xFFFFFFFF },
          { opcode := .op (.binary .bitwiseAnd), lhs := ⟨1⟩, rhs := ⟨3⟩ },
          { opcode := .op (.atomic .compareExchange), lhs := ⟨0⟩, rhs := ⟨4⟩, auxiliary := ⟨2⟩
            atomicAccess := 0 },
          { opcode := .op (.binary .equal), lhs := ⟨5⟩, rhs := ⟨4⟩ }] := by decide +kernel
    have hcomputes : flagBuilt.2.function.Computes sampleHost.float flagWords := by
      intro v n _ hn
      rw [Function.NodeAt, hnodes] at hn
      have hlt : v.index < 7 := (List.getElem?_eq_some_iff.mp hn).1
      unfold flagWords
      interval_cases hindex : v.index <;> cases hn
      · exact ⟨nofun, nofun⟩
      · exact ⟨nofun, nofun⟩
      · exact ⟨nofun, nofun⟩
      · exact ⟨fun _ => rfl, nofun⟩
      · exact ⟨nofun, fun o h => (by cases h; rfl)⟩
      · exact ⟨nofun, nofun⟩
      · exact ⟨nofun, fun o h => (by cases h; rfl)⟩
    obtain ⟨n, hnode, -, -, -, -, hflag⟩ := exclusive_atomics_act_once.2.2 _ flagBuilt.2 _ _ _ _ _
      flagAccess 0 sampleHost.float flagWords hbuilt (by decide) (by decide) hcomputes
    have hoperand : flagWords n.rhs = 7 := by
      rw [Function.NodeAt, hnodes] at hnode
      cases hnode
      rfl
    rw [hoperand] at hflag
    have hcell : cell 4 flagMemory 4096 = 7 := by decide +kernel
    refine hflag 4096 { memory := flagMemory } { memory := flagMemory, accesses := [⟨.call,
      flagMemory, setCell 4 flagMemory 4096 9, true⟩] } 7 ⟨[], _, rfl, ?_, ?_, ?_, ?_, ?_, ?_⟩ rfl
    · exact List.forall_mem_nil _
    · exact hcell.symm
    · rfl
    · rfl
    · decide
    · decide

end UniJit.Jit
