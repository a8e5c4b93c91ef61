import UniJit.Jit.ExclusiveAtomics

/-!
# Retry loops

The states of a loop that retries an exclusive load and a conditional store, for any machine: what
a failed attempt keeps (`Attempting`), what is known after a load (`Loaded`), and the two ways out of
the loop that need no fallback (`Acted`). The attempts that are left are counted in a register.
-/

namespace UniJit.Jit

open UniJit.Lib UniJit.Lib.SharedMemory UniJit.Lib.CallMachine

/-- The registers of a loop; it writes those of `scratch`. -/
structure RetryRegisters (z : Register) where
  result : Register
  address : Register
  desired : Register
  status : Register
  counter : Register
  scratch : List Register
  distinct : [z, result, address, desired, status, counter].Nodup
  result_mem : result ∈ scratch
  status_mem : status ∈ scratch
  counter_mem : counter ∈ scratch
  address_notMem : address ∉ scratch

/-- Cells are told apart by their words. -/
lemma setWidth_inj {n : Nat} (hn : 8 * n ≤ 64) {v v' : BitVec (8 * n)} :
    v.setWidth 64 = v'.setWidth 64 ↔ v = v' := by
  constructor
  · intro heq
    have hcut := congrArg (fun u => u.setWidth (8 * n)) heq
    simpa only [BitVec.setWidth_setWidth_of_le _ hn, BitVec.setWidth_eq] using hcut
  · exact congrArg _

section states

variable {z : Register} {w : Nat} (R : RetryRegisters z)

/-- A state of the loop with some attempts left; `s₁` is the state in front of the loop. -/
structure Attempting (s₁ : State z w) (left : Nat) (s : State z w) : Prop where
  within : s₁.Within R.scratch s
  counter : s.registers R.counter = BitVec.ofNat 64 left
  attempted : Attempted s₁.thread (kAtomicExclusiveAttempts - left) s.thread

/-- A state after the exclusive load of an attempt that observed `old`. -/
structure Loaded (n : Nat) (f : BitVec (8 * n) → Option (BitVec (8 * n))) (s₁ : State z w)
    (left : Nat) (old : BitVec (8 * n)) (s : State z w) : Prop where
  within : s₁.Within R.scratch s
  counter : s.registers R.counter = BitVec.ofNat 64 (left + 1)
  attempted : Attempted s₁.thread (kAtomicExclusiveAttempts - left) s.thread
  result : s.registers R.result = old.setWidth 64
  reserved : ∃ m, s.thread.reservation =
    some ((s₁.registers R.address).toNat, readBytes n m (s₁.registers R.address).toNat) ∧
      old = cell n m (s₁.registers R.address).toNat
  unmatched : f old = none → ActsOnce (s₁.registers R.address).toNat f kAtomicExclusiveAttempts
    s₁.thread s.thread old

/-- A state after the loop has done the operation by itself. -/
def Acted (n : Nat) (f : BitVec (8 * n) → Option (BitVec (8 * n))) (s₁ s : State z w) : Prop :=
  s₁.Within R.scratch s ∧ ∃ old, ActsOnce (s₁.registers R.address).toNat f
    kAtomicExclusiveAttempts s₁.thread s.thread old ∧ s.registers R.result = old.setWidth 64

end states

section steps

variable {z : Register} {w : Nat} {R : RetryRegisters z} {e : Interference} {n left : Nat}
  {f : BitVec (8 * n) → Option (BitVec (8 * n))} {s₁ s : State z w} {old : BitVec (8 * n)}

namespace RetryRegisters

variable (R)

/-- None of the loop's registers reads zero. -/
lemma ne_zero : R.result ≠ z ∧ R.address ≠ z ∧ R.desired ≠ z ∧ R.status ≠ z ∧ R.counter ≠ z := by
  have hdistinct := R.distinct
  simp only [List.nodup_cons, List.mem_cons, not_or] at hdistinct
  exact ⟨Ne.symm hdistinct.1.1, Ne.symm hdistinct.1.2.1, Ne.symm hdistinct.1.2.2.1,
    Ne.symm hdistinct.1.2.2.2.1, Ne.symm hdistinct.1.2.2.2.2.1⟩

/-- The loop's registers are different. -/
lemma result_ne : R.result ≠ R.status ∧ R.result ≠ R.counter ∧ R.status ≠ R.counter ∧
    R.desired ≠ R.status ∧ R.desired ≠ R.counter ∧ R.desired ≠ R.result := by
  have hdistinct := R.distinct
  simp only [List.nodup_cons, List.mem_cons, not_or] at hdistinct
  tauto

end RetryRegisters

/-- With the counter set the loop may attempt. -/
lemma Attempting.start
    (hcounter : s₁.registers R.counter = BitVec.ofNat 64 kAtomicExclusiveAttempts) :
    Attempting R s₁ kAtomicExclusiveAttempts s₁ where
  within := .refl R.scratch s₁
  counter := hcounter
  attempted := Nat.sub_self _ ▸ .start s₁.thread

/-- The address stays in its register. -/
lemma Attempting.read_address (h : Attempting R s₁ left s) :
    s.read R.address = s₁.registers R.address := by
  rw [State.read_of_ne s R.ne_zero.2.1, h.within.registers _ R.address_notMem]

/-- The counter holds the attempts that are left. -/
lemma Attempting.read_counter (h : Attempting R s₁ left s) :
    s.read R.counter = BitVec.ofNat 64 left := by
  rw [State.read_of_ne s R.ne_zero.2.2.2.2, h.counter]

/-- The address stays in its register. -/
lemma Loaded.read_address (h : Loaded R n f s₁ left old s) :
    s.read R.address = s₁.registers R.address := by
  rw [State.read_of_ne s R.ne_zero.2.1, h.within.registers _ R.address_notMem]

/-- The result holds the cell that was loaded. -/
lemma Loaded.read_result (h : Loaded R n f s₁ left old s) :
    s.read R.result = old.setWidth 64 := by
  rw [State.read_of_ne s R.ne_zero.1, h.result]

/-- Only scratch registers other than the result and the counter are written. -/
lemma Loaded.set (h : Loaded R n f s₁ left old s) {r : Register} (hr : r ∈ R.scratch)
    (hresult : R.result ≠ r) (hcounter : R.counter ≠ r) (v : BitVec 64) :
    Loaded R n f s₁ left old (s.set r v) := by
  by_cases hz : r = z
  · rw [State.set, if_pos hz]
    exact h
  · refine ⟨h.within.set hr v, ?_, ?_, ?_, ?_, ?_⟩
    · rw [State.set_registers _ _ _ hz, if_neg hcounter]
      exact h.counter
    · rw [State.set_thread]
      exact h.attempted
    · rw [State.set_registers _ _ _ hz, if_neg hresult]
      exact h.result
    · rw [State.set_thread]
      exact h.reserved
    · rw [State.set_thread]
      exact h.unmatched

/-- The load of an attempt. -/
lemma Attempting.load (h : Attempting R s₁ (left + 1) s) (hleft : left < kAtomicExclusiveAttempts) :
    Loaded R n f s₁ left (e.loadExclusive s.thread n (s.read R.address).toNat).1
      ({ s with thread := (e.loadExclusive s.thread n (s.read R.address).toNat).2 }.set R.result
        ((e.loadExclusive s.thread n (s.read R.address).toNat).1.setWidth 64)) := by
  have hloads : kAtomicExclusiveAttempts - (left + 1) + 1 = kAtomicExclusiveAttempts - left := by
    omega
  rw [h.read_address]
  constructor
  · exact (h.within.thread _).set R.result_mem _
  · rw [State.set_registers _ _ _ R.ne_zero.1, if_neg R.result_ne.2.1.symm]
    exact h.counter
  · rw [State.set_thread, ← hloads]
    exact h.attempted.loadExclusive
  · rw [State.set_registers _ _ _ R.ne_zero.1, if_pos rfl]
  · exact ⟨e.observed s.thread, by rw [State.set_thread]; rfl, rfl⟩
  · intro hnone
    rw [State.set_thread]
    refine ActsOnce.load h.attempted ?_ hnone
    omega

/-- The store of an attempt: it does the operation, or the attempt was in vain. -/
lemma Loaded.store (h : Loaded R n f s₁ left old s)
    (hvalue : f old = some ((s.read R.desired).setWidth (8 * n))) {s' : State z w}
    (hs' : s' = { s with
      thread := (e.storeConditional s.thread n (s.read R.address).toNat
        ((s.read R.desired).setWidth (8 * n))).2 }.set R.status
      (if (e.storeConditional s.thread n (s.read R.address).toNat
        ((s.read R.desired).setWidth (8 * n))).1 then 0 else 1)) :
    s'.read R.status = 0 ∧ Acted R n f s₁ s' ∨
      s'.read R.status ≠ 0 ∧
        Attempting R s₁ left (s'.set R.counter (s'.read R.counter - 1)) := by
  obtain ⟨-, -, -, hstatus, hcounter⟩ := R.ne_zero
  obtain ⟨hresult, -, hne, -⟩ := R.result_ne
  obtain ⟨m, hreserved, hobserved⟩ := h.reserved
  rw [h.read_address] at hs'
  generalize hoperation : e.storeConditional s.thread n (s₁.registers R.address).toNat
    ((s.read R.desired).setWidth (8 * n)) = outcome at hs'
  have hwithin : s₁.Within R.scratch s' := by
    rw [hs']
    exact (h.within.thread _).set R.status_mem _
  have hthread : s'.thread = outcome.2 := by rw [hs', State.set_thread]
  have hread : s'.read R.status = if outcome.1 then 0 else 1 := by
    rw [State.read_of_ne _ hstatus, hs', State.set_registers _ _ _ hstatus, if_pos rfl]
  have hothers : ∀ r ≠ R.status, s'.registers r = s.registers r := by
    intro r hr
    rw [hs', State.set_registers _ _ _ hstatus, if_neg hr]
  cases hsucceeded : outcome.1 with
  | true =>
      have hacts := ActsOnce.store (e := e) (f := f) h.attempted (Nat.sub_le _ _) hreserved
        hobserved hvalue (by rw [hoperation]; exact hsucceeded)
      rw [hoperation] at hacts
      refine .inl ⟨by rw [hread, if_pos hsucceeded], hwithin, old, ?_, ?_⟩
      · rw [hthread]
        exact hacts
      · rw [hothers _ hresult]
        exact h.result
  | false =>
      have hfailed : (e.storeConditional s.thread n (s₁.registers R.address).toNat
          ((s.read R.desired).setWidth (8 * n))).1 = false := by rw [hoperation]; exact hsucceeded
      have hattempted := h.attempted.storeConditional hfailed
      rw [hoperation] at hattempted
      refine .inr ⟨?_, hwithin.set R.counter_mem _, ?_, ?_⟩
      · rw [hread, if_neg (by rw [hsucceeded]; exact Bool.false_ne_true)]
        decide
      · rw [State.set_registers _ _ _ hcounter, if_pos rfl, State.read_of_ne _ hcounter,
          hothers _ hne.symm, h.counter, BitVec.ofNat_add]
        exact BitVec.add_sub_cancel _ _
      · rw [State.set_thread, hthread]
        exact hattempted

/-- The counter is zero if and only if no attempt is left. -/
lemma Attempting.read_counter_eq_zero (h : Attempting R s₁ left s)
    (hleft : left ≤ kAtomicExclusiveAttempts) : s.read R.counter = 0 ↔ left = 0 := by
  have hsmall : left < 2 ^ 64 := hleft.trans_lt (by decide)
  rw [h.read_counter]
  constructor
  · intro heq
    have hnat := congrArg BitVec.toNat heq
    rwa [BitVec.toNat_ofNat, Nat.mod_eq_of_lt hsmall] at hnat
  · intro heq
    rw [heq]
    rfl

end steps

end UniJit.Jit
