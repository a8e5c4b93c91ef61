import UniJit.Ir.InterpreterSafety
import UniJit.Jit.AtomicFallback
import UniJit.Jit.X86Atomics
import UniJit.Jit.X86BoundsAgreement

/-!
# Atomic implementations agree

The interpreter, both variants of the fallback and the x86-64 sequence do the same to the cell of
an access and hand out the same word, because each of them does what the operation does to a cell.
-/

namespace UniJit.Jit

open UniJit.Ir UniJit.Runtime UniJit.Lib UniJit.Lib.X86Program

/-- The regions of a context are bound, and their bases are addresses. -/
structure RegionsBound (context : Option ExecutionContext) : Prop where
  bound : ∀ c, context = some c → ∃ (storage : Nat) (before : ExecutionContext),
    before.bindMemoryRegions storage c.memoryRegions = .ok c
  base : ∀ c, context = some c → ∀ region ∈ c.memoryRegions, region.data < 2 ^ 64

/-- A resolved cell lies in the address space. -/
lemma RegionsBound.fits {context : Option ExecutionContext} (h : RegionsBound context)
    {access : MemoryAccessDescriptor} {byteOffset : Word} {store : Bool} {address width : Nat}
    (hresolved : boundedAddress access byteOffset store context = .ok (address, width)) :
    address + width < 2 ^ 64 := by
  obtain ⟨c, region, hc, hregion, -, hlarge, hinside, -, -, hpair⟩ :=
    boundedAddress_eq_ok.mp hresolved
  obtain ⟨storage, before, hbind⟩ := h.bound c hc
  have hmem := List.mem_of_getElem? hregion
  have hwraps := ((X86.bindMemoryRegions_eq_ok.mp hbind).2.1 region hmem).2
  have hbase := h.base c hc region hmem
  rw [Prod.mk.injEq] at hpair
  obtain ⟨rfl, rfl⟩ := hpair
  omega

/-- The width of a resolved access is one of the four. -/
lemma width_of_resolved {access : MemoryAccessDescriptor} {byteOffset : Word} {store : Bool}
    {context : Option ExecutionContext} {address width : Nat}
    (hresolved : boundedAddress access byteOffset store context = .ok (address, width)) :
    width = memoryWidthBytes access.width := by
  obtain ⟨_, _, -, -, -, -, -, -, -, hpair⟩ := boundedAddress_eq_ok.mp hresolved
  exact congrArg Prod.snd hpair

/-- **Atomic implementations agree.** Wherever an access of at most eight bytes resolves, the
interpreter, the fallback with and without its lock, and the code that the x86-64 back end emits
leave the same memory behind and hand out the same word: the zero-extended old value, or for a store
the whole operand. A compare-exchange writes exactly when the low bits match. -/
theorem atomics_agree {host : Host} (hlittle : host.littleEndian = true)
    {access : AtomicAccessDescriptor} (hnarrow : access.memory.width ≠ .k128) (o : AtomicOpcode)
    (byteOffset value desired : Word) (site : Nat) {m : Machine} (hbound : RegionsBound m.context)
    {address width : Nat}
    (hresolved :
      boundedAddress access.memory byteOffset (o ≠ .load) m.context = .ok (address, width)) :
    ∃ (w : Word) (m' : Machine),
      (accessBoundedAtomic host access o byteOffset value desired site).run m = .ok w m' ∧
      (∀ lockSubwords, (executeAtomicFallback host lockSubwords (some
        [BitVec.ofNat 64 address, fallbackCode o, BitVec.ofNat 64 width, value, desired])).run m =
          (w, m')) ∧
      (∀ (operandOffset auxiliaryOffset : Nat) (s : State),
        X86.AtomicOperands o width operandOffset auxiliaryOffset value desired m address s →
        ∀ front back, ∃ code,
          (X86.Assembler.lowerAtomicOperation o access operandOffset auxiliaryOffset).run front =
            (.ok (), front ++ code) ∧
          ∃ n s', x86.run (front ++ code ++ back) n (front.length, s) =
            some (front.length + code.length, s') ∧ X86.AtomicDone s m' w s') ∧
      w = (if o = .store then value else (cellAt width m address).setWidth 64) ∧
      (o = .compareExchange → m' =
        if cellAt width m address = value.setWidth (8 * width) then
          setCellAt width m address (desired.setWidth (8 * width))
        else m) := by
  have hfits := hbound.fits hresolved
  have hwidth := width_of_resolved hresolved
  have hmem : width ∈ [1, 2, 4, 8] := by
    rw [hwidth]
    cases hcase : access.memory.width <;> first | decide | exact absurd hcase hnarrow
  have hle : ∀ n ∈ [1, 2, 4, 8], n ≤ 8 := by decide
  refine ⟨atomicResult o value (cellAt width m address), atomicMachine width o m address value desired,
    accessBoundedAtomic_eq hlittle hresolved (hle width hmem), fun lockSubwords => ?_,
    fun operandOffset auxiliaryOffset s hs => ?_, rfl, ?_⟩
  · exact executeAtomicFallback_eq hlittle m o value desired lockSubwords hmem address (by omega)
  · exact X86.lowerAtomic_exact o hnarrow hwidth hfits.le hs
  · rintro rfl
    exact atomicMachine_compareExchange width m address value desired

/-! A compare-exchange of two bytes whose expected word has other bits above them. -/

/-- A region at 4096 with the bytes `34 12`, and the operands in a frame at 8192. -/
def sharedMachine : Machine where
  context := some { memoryRegions := [{ data := 4096, size := 8, writable := true }] }
  memory := fun a =>
    if a < 4104 then ((0x1234 : Word) >>> (8 * (a - 4096))).setWidth 8
    else if a < 8200 then ((0xFFFF000000001234 : Word) >>> (8 * (a - 8192))).setWidth 8
    else ((0x777777777777ABCD : Word) >>> (8 * (a - 8200))).setWidth 8

/-- A machine whose context binds one region. -/
def sharedState : State where
  registers := fun r => if r = 10 then 4096 else if r = 4 then 8192 else 0
  memory := fun a => sharedMachine.memory a.toNat

/-- A two-byte compare-exchange on the shared machine does what the interpreter does. -/
theorem atomics_agree_shared :
    ∃ code, (X86.Assembler.lowerAtomicOperation .compareExchange { memory := { width := .k16 } } 0
        8).run [] = (.ok (), code) ∧
      ∃ n s', x86.run code n (0, sharedState) = some (code.length, s') ∧
        s'.registers 0 = 0x1234 ∧ s'.memory 4096 = 0xCD ∧ s'.memory 4097 = 0xAB := by
  have hbound : RegionsBound sharedMachine.context := by
    refine ⟨fun c hc => ⟨1, {}, ?_⟩, fun c hc region hregion => ?_⟩
    · obtain rfl := Option.some.inj hc
      rfl
    · obtain rfl := Option.some.inj hc
      obtain rfl := List.mem_singleton.mp hregion
      decide
  have hresolved : boundedAddress { width := .k16 } 0 true sharedMachine.context = .ok (4096, 2) := rfl
  have hlittle : sampleHost.littleEndian = true := rfl
  have hnarrow : ({ memory := { width := .k16 } } : AtomicAccessDescriptor).memory.width ≠ .k128 := by
    decide
  obtain ⟨w, m', -, -, hx86, hw, hm'⟩ := atomics_agree hlittle hnarrow .compareExchange 0
    0xFFFF000000001234 0x777777777777ABCD 0 hbound hresolved
  have hoperands : X86.AtomicOperands .compareExchange 2 0 8 0xFFFF000000001234 0x777777777777ABCD
      sharedMachine 4096 sharedState := by
    refine ⟨fun _ => rfl, rfl, ?_, fun _ => ?_, ?_⟩
    · decide +kernel
    · decide +kernel
    · decide +kernel
  obtain ⟨code, hrun, n, s', hsteps, hdone⟩ := hx86 0 8 sharedState hoperands [] []
  have hcell : cellAt 2 sharedMachine 4096 = 0x1234 := by decide +kernel
  refine ⟨code, hrun, n, s', by simpa using hsteps, ?_, ?_, ?_⟩
  · refine hdone.result.trans (hw.trans ?_)
    rw [hcell]
    rfl
  · rw [hdone.memory, hm' rfl, hcell]
    decide +kernel
  · rw [hdone.memory, hm' rfl, hcell]
    decide +kernel

end UniJit.Jit
