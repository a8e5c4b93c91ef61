import UniJit.Jit.AtomicFallback
import UniJit.Lib.CallMachine
import UniJit.Lib.Sequences

/-!
# Atomic operations by retrying

What the AArch64 and RISC-V lowerings of an atomic operation have in common: the memory orders that
ask for an acquire or a release, the call of the fallback with its five arguments in the frame, and
the statement that a machine has done the operation.

`Operates` is that statement: among all accesses of the machine, exactly one does the operation to
the cell, the result is what the cell held then, and neither the live registers nor the rest of the
frame notice.
-/

namespace UniJit.Jit

open UniJit.Ir UniJit.Lib UniJit.Lib.SharedMemory UniJit.Lib.CallMachine UniJit.Runtime

/-! ## Operations -/

/-- The attempts before the fallback. -/
def kAtomicExclusiveAttempts : Nat := 16

/-- The orders that acquire. -/
def atomicOrderHasAcquire : AtomicMemoryOrder → Bool
  | .acquire | .acquireRelease | .sequentiallyConsistent => true
  | _ => false

/-- The orders that release. -/
def atomicOrderHasRelease : AtomicMemoryOrder → Bool
  | .release | .acquireRelease | .sequentiallyConsistent => true
  | _ => false

/-- The access acquires; a failed compare-exchange has an order of its own. -/
def accessAcquires (operation : AtomicOpcode) (access : AtomicAccessDescriptor) : Bool :=
  atomicOrderHasAcquire access.order ||
    (operation == .compareExchange && atomicOrderHasAcquire access.failureOrder)

/-- Exchanges, compare-exchanges and the fetching operations. -/
def Retries (o : AtomicOpcode) : Prop := o ≠ .load ∧ o ≠ .store

/-- Whether an operation retries can be computed. -/
instance (o : AtomicOpcode) : Decidable (Retries o) := inferInstanceAs (Decidable (_ ∧ _))

/-- What an operation stores over the value of a cell. -/
def storedOver {k : Nat} (o : AtomicOpcode) (operand desired cell : BitVec k) :
    Option (BitVec k) :=
  match o with
  | .load => none
  | .compareExchange => if cell = operand then some desired else none
  | o => some (o.replace cell operand desired)

/-- What an operation on a cell of `n` bytes stores; the operands are words. -/
def storedWord (n : Nat) (o : AtomicOpcode) (value desired : Word) (old : BitVec (8 * n)) :
    Option (BitVec (8 * n)) :=
  storedOver o (value.setWidth (8 * n)) (desired.setWidth (8 * n)) old

/-- What is stored, or left, is what the operation replaces the cell with. -/
lemma replace_of_storedOver {k : Nat} (o : AtomicOpcode) (operand desired cell : BitVec k) :
    (storedOver o operand desired cell).getD cell = o.replace cell operand desired := by
  cases o with
  | compareExchange =>
      simp only [storedOver, AtomicOpcode.replace]
      split_ifs <;> rfl
  | load => rfl
  | store => rfl
  | exchange => rfl
  | fetchAdd => rfl
  | fetchAnd => rfl
  | fetchOr => rfl
  | fetchXor => rfl

/-! ## The fallback as a routine -/

/-- Whether the fallback stores: the flag that its locked variant computes. -/
def fallbackWrites (host : Host) (arguments : List Word) (m : Machine) : Bool :=
  match arguments with
  | [address, code, width, operand, _] =>
      decide (width.toNat ∈ [1, 2, 4, 8]) &&
        match fallbackOperationOf code with
        | none | some .load => false
        | some .compareExchange =>
            loadNative host width.toNat address.toNat m == operand.setWidth (8 * width.toNat)
        | some _ => true
  | _ => false

/-- The fallback, as a routine on the shared memory. The runtime promises that nothing comes
between: it is one operation of the compiler, or holds a lock that all accesses of this size take. -/
def fallbackRoutine (host : Host) (lockSubwords : Bool) (count : Word) (arguments : Nat → Word)
    (m : Contents) : Word × Contents × Bool :=
  let arguments := (List.range count.toNat).map arguments
  let (result, after) :=
    (executeAtomicFallback host lockSubwords (some arguments)).run { memory := m }
  (result, after.memory, fallbackWrites host arguments { memory := m })

lemma cellAt_memory (n : Nat) (m : Contents) (address : Nat) :
    cellAt n { memory := m } address = cell n m address := rfl

/-- Storing what an operation stores, as a write of the cell. -/
lemma storeInto_storedWord (n : Nat) (m : Contents) (address : Nat) (o : AtomicOpcode)
    (value desired : Word) :
    storeInto n m address (storedWord n o value desired (cell n m address)) =
      (atomicMachine n o { memory := m } address value desired).memory := by
  have hreplace := replace_of_storedOver o (value.setWidth (8 * n)) (desired.setWidth (8 * n))
    (cell n m address)
  rw [atomicMachine, cellAt_memory, ← hreplace, storedWord]
  cases storedOver o (value.setWidth (8 * n)) (desired.setWidth (8 * n)) (cell n m address) with
  | some stored => rfl
  | none =>
      have hkept := setCellAt_cellAt n { memory := m } address
      rw [cellAt_memory] at hkept
      rw [Option.getD_none, hkept]
      rfl

section fallback

variable {host : Host} (hlittle : host.littleEndian = true) {n : Nat} {o : AtomicOpcode}

include hlittle

/-- **The fallback does the operation to the cell.** -/
lemma fallbackRoutine_eq (lockSubwords : Bool) (hn : n ∈ [1, 2, 4, 8]) (ho : Retries o)
    (address value desired : Word) {arguments : Nat → Word} (haddress : arguments 0 = address)
    (hcode : arguments 1 = fallbackCode o) (hwidth : arguments 2 = BitVec.ofNat 64 n)
    (hvalue : arguments 3 = value) (hdesired : arguments 4 = desired) (m : Contents) :
    fallbackRoutine host lockSubwords (BitVec.ofNat 64 kAtomicFallbackArgumentCount) arguments m =
      ((cell n m address.toNat).setWidth 64,
        storeInto n m address.toNat (storedWord n o value desired (cell n m address.toNat)),
        (storedWord n o value desired (cell n m address.toNat)).isSome) := by
  have hlist : (List.range (BitVec.ofNat 64 kAtomicFallbackArgumentCount).toNat).map arguments =
      [BitVec.ofNat 64 address.toNat, fallbackCode o, BitVec.ofNat 64 n, value, desired] := by
    have hrange : List.range (BitVec.ofNat 64 kAtomicFallbackArgumentCount).toNat =
        [0, 1, 2, 3, 4] := rfl
    rw [hrange]
    simp [haddress, hcode, hwidth, hvalue, hdesired]
  have hrun := executeAtomicFallback_eq hlittle { memory := m } o value desired lockSubwords hn
    address.toNat address.isLt
  have hnat : (BitVec.ofNat 64 n).toNat = n := by
    simp only [List.mem_cons, List.not_mem_nil, or_false] at hn
    rcases hn with rfl | rfl | rfl | rfl <;> rfl
  have hloaded : loadNative host n address.toNat { memory := m } = cell n m address.toNat :=
    loadNative_eq hlittle n address.toNat { memory := m }
  have hwrites : fallbackWrites host
      [BitVec.ofNat 64 address.toNat, fallbackCode o, BitVec.ofNat 64 n, value, desired]
      { memory := m } = (storedWord n o value desired (cell n m address.toNat)).isSome := by
    simp only [fallbackWrites, fallbackOperationOf_code, BitVec.ofNat_toNat, BitVec.setWidth_eq,
      hnat, hn, decide_true, Bool.true_and]
    cases o with
    | load => exact absurd rfl ho.1
    | store => exact absurd rfl ho.2
    | compareExchange =>
        generalize (BitVec.ofNat 64 n).toNat = width at hnat ⊢
        subst hnat
        simp only [hloaded, storedWord, storedOver]
        split_ifs with hequal <;> simp [hequal]
    | exchange => rfl
    | fetchAdd => rfl
    | fetchAnd => rfl
    | fetchOr => rfl
    | fetchXor => rfl
  simp only [fallbackRoutine, hlist, hwrites, hrun, storeInto_storedWord]
  simp [atomicResult, ho.2, cellAt_memory, pure]

end fallback

/-! ## Patches -/

section patches

open UniJit.Lib.Sequences (Assembly patch)

variable {I : Type}

/-- Patch a branch whose displacement, in instructions, has to be in a range. -/
def patchWithin (tooFar : String) (low high : Int) (encode : Int → I) (offset target : Nat) :
    Assembly I (Except Status Unit) :=
  let words : Int := (target : Int) - offset
  if words < low ∨ high < words then pure (.error ⟨.resourceExhausted, tooFar, 0⟩)
  else do
    patch offset (encode words)
    pure (.ok ())

/-- Patches up to the first that fails. -/
def patchEach : List (Assembly I (Except Status Unit)) → Assembly I (Except Status Unit)
  | [] => pure (.ok ())
  | p :: ps => do
      match ← p with
      | .ok _ => patchEach ps
      | .error status => pure (.error status)

/-- Patches succeed one after the other. -/
lemma run_patchEach_cons {tooFar : String} {low high : Int} {encode : Int → I}
    {offset target : Nat} {ps : List (Assembly I (Except Status Unit))} {code code' : List I}
    (h : (patchEach (patchWithin tooFar low high encode offset target :: ps)).run code =
      pure (.ok (), code')) :
    (patchEach ps).run (code.set offset (encode ((target : Int) - offset))) =
      pure (.ok (), code') := by
  simp only [patchEach, patchWithin, StateT.run_bind] at h
  split_ifs at h
  · cases h
  · exact h

/-- No patch changes nothing. -/
lemma run_patchEach_nil {code code' : List I}
    (h : (patchEach []).run code = pure (.ok (), code')) : code' = code := by
  cases h
  rfl

end patches

/-! ## The statement -/

/-- **The machine has done the operation.** The address and the operands are words; a cell of `n`
bytes is at the address, and the operands are cut down to it. -/
structure Operates {z : Register} {w : Nat} (o : AtomicOpcode) (n : Nat) (homes : List Home)
    (callArgumentBase atomicResultSlot : Nat) (result : Register) (address value desired : Word)
    (s s' : State z w) : Prop where
  /-- One access does the operation, after some number of attempts and at most one call. -/
  acts : ∃ old : BitVec (8 * n),
    ActsOnce address.toNat (storedWord n o value desired) kAtomicExclusiveAttempts s.thread
      s'.thread old ∧ s'.registers result = old.setWidth 64
  /-- The live registers hold what they held. -/
  live : ∀ h ∈ homes, s'.words h = s.words h
  /-- Only the places of the live registers, the arguments and the slot of the result change. -/
  frame : ∀ k, (∀ h ∈ homes, k ∉ h.slots) →
    k < callArgumentBase ∨ callArgumentBase + kAtomicFallbackArgumentCount ≤ k →
    k ≠ atomicResultSlot → s'.frame k = s.frame k
  stackPointer : s'.stackPointer = s.stackPointer

/-- **Homes that a call may use**: no two meet, they lie in the frame in front of the arguments, and
their registers are none that the lowering uses. -/
structure Homes (z : Register) (w : Nat) (scratch : List Register) (callArgumentBase : Nat)
    (homes : List Home) : Prop where
  apart : homes.Pairwise Home.Apart
  fits : ∀ h ∈ homes, h.Fits z w
  below : ∀ h ∈ homes, ∀ k ∈ h.slots, k < callArgumentBase
  registers : ∀ h ∈ homes, h.isWord → h.register ∉ scratch

/-- Homes apart from more scratch registers are apart from fewer. -/
lemma Homes.mono {z : Register} {w base : Nat} {scratch scratch' : List Register}
    {homes : List Home} (h : Homes z w scratch base homes) (hsub : scratch' ⊆ scratch) :
    Homes z w scratch' base homes :=
  ⟨h.apart, h.fits, h.below, fun home hh hword hmem => h.registers home hh hword (hsub hmem)⟩

/-! ## The call of the fallback -/

/-- The frame holds what the fallback and the code after it need, for an operation that began in the
state `s₀`. -/
structure Prepared {z : Register} {w : Nat} (o : AtomicOpcode) (n : Nat) (homes : List Home)
    (callArgumentBase : Nat) (address value desired : Word) (s₀ s : State z w) : Prop where
  saved : ∀ h ∈ homes, h.slots.map s.frame = s₀.words h
  address : s.frame callArgumentBase = address
  code : s.frame (callArgumentBase + 1) = fallbackCode o
  width : s.frame (callArgumentBase + 2) = BitVec.ofNat 64 n
  operand : s.frame (callArgumentBase + 3) = value
  desired : s.frame (callArgumentBase + 4) = desired
  frame : ∀ k, (∀ h ∈ homes, k ∉ h.slots) →
    k < callArgumentBase ∨ callArgumentBase + kAtomicFallbackArgumentCount ≤ k →
    s.frame k = s₀.frame k
  stackPointer : s.stackPointer = s₀.stackPointer

section calls

variable {z : Register} {w : Nat}

/-- Store the live registers and the arguments of the fallback. -/
def storeArguments (address scratch operand desired : Register) (o : AtomicOpcode) (n : Nat)
    (homes : List Home) (callArgumentBase : Nat) (s : State z w) : State z w :=
  let s := (s.saveAll homes).save (.word address callArgumentBase)
  let s := (s.set scratch (fallbackCode o)).save (.word scratch (callArgumentBase + 1))
  let s := (s.set scratch (BitVec.ofNat 64 n)).save (.word scratch (callArgumentBase + 2))
  (s.save (.word operand (callArgumentBase + 3))).save (.word desired (callArgumentBase + 4))

/-- Call the fallback with its arguments in the frame, and restore the live registers around the
result. -/
def callFallback (e : Environment w) (result count scratch : Register) (helper : Word)
    (homes : List Home) (callArgumentBase atomicResultSlot : Nat) (s : State z w) : State z w :=
  let s := s.set result (s.stackPointer + BitVec.ofNat 64 (callArgumentBase * 8))
  let s := (s.set count (BitVec.ofNat 64 kAtomicFallbackArgumentCount)).set scratch helper
  let s := s.call e (s.read scratch) (s.read result) (s.read count) result
  ((s.save (.word result atomicResultSlot)).restoreAll homes).restore (.word result atomicResultSlot)

variable {address scratch operand desired : Register} {o : AtomicOpcode} {n : Nat}
  {homes : List Home} {base : Nat} {s₀ s : State z w}

/-- Storing the arguments changes the scratch register only. -/
lemma storeArguments_registers :
    ∀ r ≠ scratch, (storeArguments address scratch operand desired o n homes base s).registers r =
      s.registers r := by
  intro r hr
  unfold storeArguments
  by_cases hz : scratch = z
  · simp [State.set, hz]
  · simp [State.set_registers _ _ _ hz, hr]

lemma storeArguments_floats :
    (storeArguments address scratch operand desired o n homes base s).floats = s.floats := by
  simp [storeArguments]

lemma storeArguments_thread :
    (storeArguments address scratch operand desired o n homes base s).thread = s.thread := by
  simp [storeArguments]

variable (address) in
/-- The arguments are words behind the places of the live registers. -/
lemma storeArguments_prepared (hscratch : scratch ≠ z)
    (hoperand : operand ≠ scratch) (hdesired : desired ≠ scratch)
    (hapart : homes.Pairwise Home.Apart) (hbelow : ∀ h ∈ homes, ∀ k ∈ h.slots, k < base)
    (hwords : ∀ h ∈ homes, s.words h = s₀.words h) (hframe : s.frame = s₀.frame)
    (hpointer : s.stackPointer = s₀.stackPointer) :
    Prepared o n homes base (s.read address) (s.read operand) (s.read desired) s₀
      (storeArguments address scratch operand desired o n homes base s) := by
  have hread : ∀ r ≠ scratch, ∀ v : Word, ∀ s : State z w, (s.set scratch v).read r = s.read r := by
    intro r hr v s
    unfold State.read
    rw [State.set_registers _ _ _ hscratch, if_neg hr]
  have hset : ∀ (v : Word) (s : State z w), (s.set scratch v).read scratch = v := by
    intro v s
    rw [State.read_of_ne _ hscratch, State.set_registers _ _ _ hscratch, if_pos rfl]
  have hsave : ∀ r h, ∀ s : State z w, (s.save h).read r = s.read r := by
    intro r h s
    simp only [State.read, State.save_registers]
  have hall : ∀ r, (s.saveAll homes).read r = s.read r := by
    intro r
    simp only [State.read, State.saveAll_registers]
  have hstored : (storeArguments address scratch operand desired o n homes base s).frame =
      Function.update (Function.update (Function.update (Function.update (Function.update
        (s.saveAll homes).frame base (s.read address)) (base + 1) (fallbackCode o)) (base + 2)
          (BitVec.ofNat 64 n)) (base + 3) (s.read operand)) (base + 4) (s.read desired) := by
    have hsave' : ∀ (r : Register) (k : Nat) (s : State z w),
        (s.save (.word r k)).frame = Function.update s.frame k (s.read r) := fun r k s => rfl
    simp only [storeArguments, hsave', State.set_frame, hread _ hoperand, hread _ hdesired, hset,
      hsave, hall]
  have hbehind : ∀ k < base, (storeArguments address scratch operand desired o n homes base s).frame
      k = (s.saveAll homes).frame k := by
    intro k hk
    rw [hstored]
    repeat rw [Function.update_of_ne (by omega)]
  constructor
  · intro h hh
    rw [← hwords h hh, ← State.slots_saveAll s homes hapart h hh]
    exact List.map_congr_left fun k hk => hbehind k (hbelow h hh k hk)
  · simp [hstored]
  · simp [hstored]
  · simp [hstored]
  · simp [hstored]
  · simp [hstored]
  · intro k hnot hk
    rw [← hframe, ← State.saveAll_frame_of_notMem s homes hnot, hstored]
    unfold kAtomicFallbackArgumentCount at hk
    repeat rw [Function.update_of_ne (by omega)]
  · rw [← hpointer]
    simp [storeArguments]

/-- Scratch registers are not needed. -/
lemma Prepared.within {registers : List Register} {s' : State z w} {a v d : Word}
    (h : Prepared o n homes base a v d s₀ s) (hwithin : s.Within registers s') :
    Prepared o n homes base a v d s₀ s' := by
  have hframe := hwithin.frame
  refine ⟨?_, ?_, ?_, ?_, ?_, ?_, ?_, hwithin.stackPointer.trans h.stackPointer⟩ <;> rw [hframe]
  · exact h.saved
  · exact h.address
  · exact h.code
  · exact h.width
  · exact h.operand
  · exact h.desired
  · exact h.frame

/-- An operation that only needed scratch registers, with or without arguments in the frame. -/
lemma Operates.of_within {registers : List Register} {s' : State z w} {a v d : Word}
    {result : Register} {resultSlot : Nat} (hwithin : s.Within registers s')
    (hhomes : Homes z w registers base homes) (hwords : ∀ h ∈ homes, s.words h = s₀.words h)
    (hframe : ∀ k, (∀ h ∈ homes, k ∉ h.slots) →
      k < base ∨ base + kAtomicFallbackArgumentCount ≤ k → s.frame k = s₀.frame k)
    (hpointer : s.stackPointer = s₀.stackPointer)
    (hacts : ∃ old : BitVec (8 * n), ActsOnce a.toNat (storedWord n o v d)
      kAtomicExclusiveAttempts s₀.thread s'.thread old ∧ s'.registers result = old.setWidth 64) :
    Operates o n homes base resultSlot result a v d s₀ s' := by
  constructor
  · exact hacts
  · intro h hh
    exact (hwithin.words (hhomes.registers h hh)).trans (hwords h hh)
  · intro k hnot hk _
    rw [hwithin.frame]
    exact hframe k hnot hk
  · exact hwithin.stackPointer.trans hpointer

/-- **The fallback finishes an operation**: it is the only call, and the last access. -/
lemma Prepared.operates {e : Environment w} {host : Host} {lockSubwords : Bool}
    {result count : Register} {helper addressValue value desiredValue operandValue : Word}
    {registers : List Register} {resultSlot loads : Nat}
    (h : Prepared o n homes base addressValue operandValue desiredValue s₀ s)
    (hlittle : host.littleEndian = true)
    (hroutine : e.routine helper = fallbackRoutine host lockSubwords) (hn : n ∈ [1, 2, 4, 8])
    (ho : Retries o) (hoperand : operandValue.setWidth (8 * n) = value.setWidth (8 * n))
    (hbase : base * 8 < 2 ^ 64) (hhomes : Homes z w registers base homes)
    (hresult : result ∈ registers) (hslot : base + kAtomicFallbackArgumentCount ≤ resultSlot)
    (hz : result ≠ z ∧ count ≠ z ∧ scratch ≠ z)
    (hne : result ≠ count ∧ result ≠ scratch ∧ count ≠ scratch)
    (hattempted : Attempted s₀.thread loads s.thread) (hloads : loads ≤ kAtomicExclusiveAttempts) :
    Operates o n homes base resultSlot result addressValue value desiredValue s₀
      (callFallback e result count scratch helper homes base resultSlot s) := by
  obtain ⟨hz₀, hz₁, hz₂⟩ := hz
  obtain ⟨hne₀, hne₁, hne₂⟩ := hne
  have hwidth : 8 * n ≤ 64 := by
    simp only [List.mem_cons, List.not_mem_nil, or_false] at hn
    omega
  have hstored : storedWord n o operandValue desiredValue = storedWord n o value desiredValue := by
    unfold storedWord
    rw [hoperand]
  -- the pointer points to the arguments
  have hpointer :
      (s.stackPointer + BitVec.ofNat 64 (base * 8) - s.stackPointer).toNat / 8 = base := by
    rw [BitVec.add_comm, BitVec.add_sub_cancel, BitVec.toNat_ofNat, Nat.mod_eq_of_lt hbase,
      Nat.mul_div_cancel _ (by decide)]
  let arguments := fun i => s.frame (base + i)
  let routine := fallbackRoutine host lockSubwords
    (BitVec.ofNat 64 kAtomicFallbackArgumentCount) arguments
  have hroutine' : ∀ m, routine m = ((cell n m addressValue.toNat).setWidth 64,
      storeInto n m addressValue.toNat
        (storedWord n o value desiredValue (cell n m addressValue.toNat)),
      (storedWord n o value desiredValue (cell n m addressValue.toNat)).isSome) := by
    intro m
    rw [← hstored]
    exact fallbackRoutine_eq hlittle lockSubwords hn ho addressValue operandValue desiredValue
      h.address h.code h.width h.operand h.desired m
  have hact : ActsOnce addressValue.toNat (storedWord n o value desiredValue)
      kAtomicExclusiveAttempts s₀.thread (e.call s.thread routine).2
      ((e.call s.thread routine).1.setWidth (8 * n)) := by
    refine ActsOnce.call hattempted hloads (fun v : Word => v.setWidth (8 * n)) fun m => ?_
    rw [hroutine' m]
    exact ⟨(BitVec.setWidth_setWidth_of_le _ hwidth).trans (BitVec.setWidth_eq _), rfl, rfl⟩
  have hvalue : ((e.call s.thread routine).1.setWidth (8 * n)).setWidth 64 =
      (e.call s.thread routine).1 := by
    have houtcome : (e.call s.thread routine).1 = (routine (e.observed s.thread)).1 := rfl
    rw [houtcome, hroutine']
    change ((BitVec.setWidth 64 _).setWidth (8 * n)).setWidth 64 = _
    rw [BitVec.setWidth_setWidth_of_le _ hwidth, BitVec.setWidth_eq]
  -- the state after the call
  let called : State z w :=
    { s with
      registers := Function.update (e.clobbered s.thread.accesses.length) result
        (e.call s.thread routine).1
      floats := e.clobberedFloats s.thread.accesses.length
      zero := e.clobberedZero s.thread.accesses.length
      thread := (e.call s.thread routine).2 }
  have hfinal : callFallback e result count scratch helper homes base resultSlot s =
      ((called.save (.word result resultSlot)).restoreAll homes).restore
        (.word result resultSlot) := by
    simp only [callFallback, State.call, State.read_of_ne _ hz₀, State.read_of_ne _ hz₁,
      State.read_of_ne _ hz₂, State.set_registers _ _ _ hz₀, State.set_registers _ _ _ hz₁,
      State.set_registers _ _ _ hz₂, if_true, hne₀, hne₁, hne₂, if_false, State.set_frame,
      State.set_stackPointer, State.set_thread, hpointer, hroutine, called, routine, arguments]
  have hnotMem : ∀ h ∈ homes, resultSlot ∉ h.slots := by
    intro h hh hslot'
    have hlt := hhomes.below h hh _ hslot'
    omega
  have hmid : ∀ h ∈ homes, ((called.save (.word result resultSlot)).restoreAll homes).words h =
      s₀.words h := by
    intro h' hh
    rw [State.words_restoreAll _ _ hhomes.apart hhomes.fits h' hh, ← h.saved h' hh]
    apply List.map_congr_left
    intro k hk
    have hne : k ≠ resultSlot := fun heq => hnotMem h' hh (heq ▸ hk)
    exact Function.update_of_ne hne _ _
  rw [hfinal]
  constructor
  · refine ⟨(e.call s.thread routine).1.setWidth (8 * n), ?_, ?_⟩
    · rw [State.restore_thread, State.restoreAll_thread, State.save_thread]
      exact hact
    · rw [hvalue]
      simp only [State.restore, State.set_registers _ _ _ hz₀, if_true, State.restoreAll_frame]
      simp [State.save, State.read_of_ne _ hz₀, called]
  · intro h' hh
    rw [← hmid h' hh]
    apply State.words_restore_of_apart
    intro hkind heq
    exact hhomes.registers h' hh (hkind.symm.trans rfl) (heq ▸ hresult)
  · intro k hnot hk hne
    rw [State.restore_frame, State.restoreAll_frame, ← h.frame k hnot hk]
    exact Function.update_of_ne hne _ _
  · rw [State.restore_stackPointer, State.restoreAll_stackPointer, State.save_stackPointer,
      ← h.stackPointer]

end calls

end UniJit.Jit
