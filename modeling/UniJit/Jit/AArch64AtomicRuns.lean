import UniJit.Jit.AArch64Atomics
import UniJit.Jit.RetryLoop

/-!
# Runs of the AArch64 loop

What the instructions of an atomic operation make of a state, for every interference: the setup
prepares the fallback, the loop is an induction on the attempts that are left, and the fallback does
what the loop did not.
-/

namespace UniJit.Jit.AArch64.Atomics

open UniJit.Ir hiding Instruction
open UniJit.Lib UniJit.Lib.SharedMemory UniJit.Lib.AArch64Atomics UniJit.Lib.CallMachine
  UniJit.Lib.Sequences UniJit.Runtime

/-! ## Straight code -/

section straight

variable {e : Environment} {s : State}

/-- Keeping one halfword more. -/
lemma through_keepItems {d : Register} (hd : d ≠ 31) (v : Word) (half : Nat) :
    through (step e) (keepItems d v half) (s.set d (lowHalves half v)) =
      some (s.set d (lowHalves (half + 1) v)) := by
  unfold keepItems
  split_ifs with hzero
  · rw [lowHalves_succ_of_zero hzero]
    rfl
  · have hread : (s.set d (lowHalves half v)).read d = lowHalves half v := by
      rw [State.read_of_ne _ hd, State.set_registers _ _ _ hd, if_pos rfl]
    simp only [through, step, hread, insert_half, State.set_set]

/-- The moves put the immediate into the register. -/
lemma through_moveImmediate {d : Register} (hd : d ≠ 31) (v : Word) :
    through (step e) (moveImmediateItems d v) s = some (s.set d v) := by
  have hfirst : (v.setWidth 16).setWidth 64 <<< (16 * 0) = lowHalves 1 v := by
    simp [lowHalves]
  have hlast : lowHalves 4 v = v := by simp [lowHalves]
  rw [moveImmediateItems, through_cons rfl, hfirst, through_append, through_keepItems hd,
    Option.bind_some, through_append, through_keepItems hd, Option.bind_some,
    through_keepItems hd, hlast]

/-- The stores save the homes. -/
lemma through_stores (homes : List Home) :
    through (step e) (homes.map .store) s = some (s.saveAll homes) := by
  induction homes generalizing s with
  | nil => rfl
  | cons h homes ih => exact ih

/-- The loads restore the homes. -/
lemma through_loads (homes : List Home) :
    through (step e) (homes.map .load) s = some (s.restoreAll homes) := by
  induction homes generalizing s with
  | nil => rfl
  | cons h homes ih => exact ih

variable (o : AtomicOpcode) (width base : Nat) (homes : List Home)

/-- The homes and the arguments of the call are stored. -/
lemma through_arguments :
    through (step e) (homes.map .store ++ argumentItems o width base) s =
      some (storeArguments 2 16 3 4 o width homes base s) := by
  have hscratch : (16 : Register) ≠ 31 := by decide
  rw [through_append, through_stores, Option.bind_some, argumentItems, through_cons rfl,
    through_append, through_moveImmediate hscratch, Option.bind_some, through_cons rfl,
    through_append, through_moveImmediate hscratch, Option.bind_some]
  rfl

/-- The operand, cut down to the cell if it is the expected value of a narrow one. -/
def extended (s : State) : State :=
  if o = .compareExchange ∧ width < 8 then s.set 3 (((s.read 3).setWidth (8 * width)).setWidth 64)
  else s

/-- Before the retry loop the arguments are stored and the attempts are set. -/
lemma through_setupItems :
    through (step e) (setupItems o width homes base) s =
      some ((storeArguments 2 16 3 4 o width homes base (extended o width s)).set 6
        (BitVec.ofNat 64 kAtomicExclusiveAttempts)) := by
  have hextend : through (step e) (extendItems o width) s = some (extended o width s) := by
    unfold extendItems extended
    split_ifs <;> rfl
  have hretry : (6 : Register) ≠ 31 := by decide
  rw [setupItems, through_append, hextend, Option.bind_some, ← List.append_assoc, through_append,
    through_arguments, Option.bind_some, through_moveImmediate hretry]

/-- The fallback calls the helper and restores the homes. -/
lemma through_fallbackItems (helper : Word) (atomicResultSlot : Nat) :
    through (step e) (fallbackItems helper homes base atomicResultSlot) s =
      some (callFallback e 0 1 16 helper homes base atomicResultSlot s) := by
  have hcount : (1 : Register) ≠ 31 := by decide
  have hscratch : (16 : Register) ≠ 31 := by decide
  rw [fallbackItems, through_cons rfl, through_append, through_moveImmediate hcount,
    Option.bind_some, through_append, through_moveImmediate hscratch, Option.bind_some,
    through_append]
  change (through (step e) (homes.map .load ++ _) _) = _
  rw [through_append, through_loads, Option.bind_some]
  rfl

end straight

/-! ## The loop -/

/-- The registers of the loop; a compare-exchange keeps the desired value. -/
def loopRegisters (o : AtomicOpcode) : RetryRegisters 31 where
  result := 0
  address := 2
  desired := 4
  status := 5
  counter := 6
  scratch := if o = .compareExchange then [0, 5, 6] else [0, 4, 5, 6]
  distinct := by decide
  result_mem := by split_ifs <;> decide
  status_mem := by split_ifs <;> decide
  counter_mem := by split_ifs <;> decide
  address_notMem := by split_ifs <;> decide

section loop

variable {e : Environment} {o : AtomicOpcode} {n left : Nat}
  {f : BitVec (8 * n) → Option (BitVec (8 * n))} {s₁ s : State} {Q : State → Prop}
  (haligned : (s₁.registers 2).toNat % n = 0)

include haligned

/-- The load of an attempt. -/
lemma step_load (h : Attempting (loopRegisters o) s₁ (left + 1) s)
    (hleft : left < kAtomicExclusiveAttempts) (acquire : Bool) :
    ∃ old s', step e (.loadExclusive n acquire 0 2) s = .next s' ∧
      Loaded (loopRegisters o) n f s₁ left old s' := by
  have haddress : s.read 2 = s₁.registers 2 := h.read_address
  exact ⟨_, _, step_loadExclusive (by rw [haddress]; exact haligned) acquire 0, h.load hleft⟩

/-- The store of an attempt and the branches behind it: out of the loop if the store succeeded, and
otherwise back to its start as long as attempts are left. -/
lemma completes_store {code : Code} {position : Nat} (start : Nat) {done back : Int}
    {old : BitVec (8 * n)} {release : Bool} (h : Loaded (loopRegisters o) n f s₁ left old s)
    (hleft : left < kAtomicExclusiveAttempts)
    (hvalue : f old = some ((s.read 4).setWidth (8 * n)))
    (hstore : code[position]? = some (.storeExclusive n release 5 4 2))
    (hdone : code[position + 1]? = some (.branchZero 5 done))
    (hdecrement : code[position + 2]? = some (.decrement 6))
    (hback : code[position + 3]? = some (.branchNonzero 6 back))
    (hend : ((position + 1 : Nat) : Int) + done = code.length)
    (hstart : ((position + 3 : Nat) : Int) + back = start)
    (hacted : ∀ s', Acted (loopRegisters o) n f s₁ s' → Q s')
    (hagain : ∀ s', Attempting (loopRegisters o) s₁ left s' → left ≠ 0 →
      Completes (step e) code start s' Q)
    (hfallback : ∀ s', Attempting (loopRegisters o) s₁ 0 s' →
      Completes (step e) code (position + 4) s' Q) :
    Completes (step e) code position s Q := by
  have haddress : s.read 2 = s₁.registers 2 := h.read_address
  refine Completes.next hstore
    (step_storeExclusive (by rw [haddress]; exact haligned) release 5 4) ?_
  obtain ⟨hstatus, hdid⟩ | ⟨hstatus, hattempting⟩ := h.store (e := e.toInterference) hvalue rfl
  · refine Completes.jump hdone (step_branchZero hstatus) hend ?_
    exact Completes.done rfl (hacted _ hdid)
  · refine Completes.next hdone (step_branchZero_of_ne hstatus) (Completes.next hdecrement rfl ?_)
    have hcounter := hattempting.read_counter_eq_zero hleft.le
    by_cases hzero : left = 0
    · subst hzero
      exact Completes.next hback (step_branchNonzero_of_eq (hcounter.mpr rfl))
        (hfallback _ hattempting)
    · exact Completes.jump hback (step_branchNonzero (mt hcounter.mp hzero)) hstart
        (hagain _ hattempting hzero)

end loop

section bodies

variable {e : Environment} {o : AtomicOpcode} {n left : Nat} {acquire release : Bool}
  {value desired : Word} {s₁ s : State} {Q : State → Prop}
  {old : BitVec (8 * n)} (hn : 8 * n ≤ 64)
  (hoperand : (s₁.registers 3).setWidth (8 * n) = value.setWidth (8 * n))

include hn hoperand

/-- What is to be stored is computed from the loaded value. -/
lemma step_compute
    (h : Loaded (loopRegisters o) n (storedWord n o value desired) s₁ left old s)
    (ho : Retries o) (hcompare : o ≠ .compareExchange) :
    ∃ i s', computeItem o = [i] ∧ step e i s = .next s' ∧
      Loaded (loopRegisters o) n (storedWord n o value desired) s₁ left old s' ∧
      storedWord n o value desired old = some ((s'.read 4).setWidth (8 * n)) := by
  have hscratch : (loopRegisters o).scratch = [0, 4, 5, 6] := if_neg hcompare
  have hset : ∀ v, Loaded (loopRegisters o) n (storedWord n o value desired) s₁ left old
      (s.set 4 v) := by
    intro v
    refine h.set ?_ (show (0 : Register) ≠ 4 by decide) (show (6 : Register) ≠ 4 by decide) v
    rw [hscratch]
    decide
  have hsource : ∀ v, (s.set 4 v).read 4 = v := by
    intro v
    rw [State.read_of_ne _ (by decide), State.set_registers _ _ _ (by decide), if_pos rfl]
  have hloaded : s.read 0 = old.setWidth 64 := h.read_result
  have hread : (s.read 3).setWidth (8 * n) = value.setWidth (8 * n) := by
    rw [State.read_of_ne s (by decide), h.within.registers 3 (by rw [hscratch]; decide), hoperand]
  have hold : (old.setWidth 64).setWidth (8 * n) = old :=
    (BitVec.setWidth_setWidth_of_le _ hn).trans (BitVec.setWidth_eq _)
  cases o with
  | load => exact absurd rfl ho.1
  | store => exact absurd rfl ho.2
  | compareExchange => exact absurd rfl hcompare
  | exchange =>
      refine ⟨_, _, rfl, rfl, hset _, ?_⟩
      rw [kAtomicDesiredRegister, hsource, kAtomicOperandRegister, hread]
      rfl
  | fetchAdd =>
      refine ⟨_, _, rfl, rfl, hset _, ?_⟩
      rw [kAtomicDesiredRegister, hsource, kReturnRegister, hloaded, BitVec.setWidth_add _ _ hn,
        hold, kAtomicOperandRegister, hread]
      rfl
  | fetchAnd =>
      refine ⟨_, _, rfl, rfl, hset _, ?_⟩
      rw [kAtomicDesiredRegister, hsource, kReturnRegister, hloaded, BitVec.setWidth_and, hold,
        kAtomicOperandRegister, hread]
      rfl
  | fetchOr =>
      refine ⟨_, _, rfl, rfl, hset _, ?_⟩
      rw [kAtomicDesiredRegister, hsource, kReturnRegister, hloaded, BitVec.setWidth_or, hold,
        kAtomicOperandRegister, hread]
      rfl
  | fetchXor =>
      refine ⟨_, _, rfl, rfl, hset _, ?_⟩
      rw [kAtomicDesiredRegister, hsource, kReturnRegister, hloaded, BitVec.setWidth_xor, hold,
        kAtomicOperandRegister, hread]
      rfl

variable {front rest : Code}

/-- The loop of an exchange or a fetching operation. -/
lemma completes_updateLoop (haligned : (s₁.registers 2).toNat % n = 0) (ho : Retries o)
    (hcompare : o ≠ .compareExchange)
    (hacted : ∀ s', Acted (loopRegisters o) n (storedWord n o value desired) s₁ s' → Q s')
    (hfallback : ∀ s', Attempting (loopRegisters o) s₁ 0 s' →
      Completes (step e) (front ++ (loopItems o n acquire release rest.length ++ rest))
        (front.length + 6) s' Q)
    (hleft : left ≠ 0) (hmost : left ≤ kAtomicExclusiveAttempts)
    (h : Attempting (loopRegisters o) s₁ left s) :
    Completes (step e) (front ++ (loopItems o n acquire release rest.length ++ rest)) front.length
      s Q := by
  induction left generalizing s with
  | zero => exact absurd rfl hleft
  | succ left ih =>
      obtain ⟨old, s₂, hload, hloaded⟩ := step_load (e := e) (f := storedWord n o value desired)
        haligned h hmost acquire
      obtain ⟨i, s₃, hitem, hcompute, hcomputed, hstored⟩ :=
        step_compute (e := e) hn hoperand hloaded ho hcompare
      have hloop : loopItems o n acquire release rest.length =
          [.loadExclusive n acquire 0 2, i, .storeExclusive n release 5 4 2,
            .branchZero 5 (rest.length + 3), .decrement 6, .branchNonzero 6 (-5)] := by
        rw [loopItems, if_neg hcompare, hitem]
        rfl
      rw [hloop] at ih hfallback ⊢
      refine Completes.next (at_front (j := 0) rfl) hload
        (Completes.next (at_front (j := 1) rfl) hcompute ?_)
      refine completes_store haligned front.length hcomputed hmost hstored
        (at_front (j := 2) rfl) (at_front (j := 3) rfl)
        (at_front (j := 4) rfl) (at_front (j := 5) rfl) ?_ ?_ hacted
        (fun s' hagain hzero => ih hzero (Nat.le_of_succ_le hmost) hagain) hfallback
      · simp only [List.length_append, List.length_cons, List.length_nil]
        omega
      · omega

end bodies

section compareExchange

variable {e : Environment} {n left : Nat} {acquire release : Bool} {value desired : Word}
  {s₁ s : State} {Q : State → Prop} {old : BitVec (8 * n)} (hn : 8 * n ≤ 64)
  (hoperand : s₁.registers 3 = (value.setWidth (8 * n)).setWidth 64)
  (hdesired : s₁.registers 4 = desired)

include hn hoperand

/-- The comparison is one of the cell with the expected value. -/
lemma compare_loaded (h : Loaded (loopRegisters .compareExchange) n
    (storedWord n .compareExchange value desired) s₁ left old s) :
    (s.read 0 == s.read 3) = decide (old = value.setWidth (8 * n)) := by
  have hresult : s.read 0 = old.setWidth 64 := h.read_result
  have hexpected : s.read 3 = (value.setWidth (8 * n)).setWidth 64 := by
    rw [State.read_of_ne s (by decide), h.within.registers 3 (by decide), hoperand]
  rw [hresult, hexpected, Bool.eq_iff_iff, beq_iff_eq, decide_eq_true_iff, setWidth_inj hn]

include hdesired

variable {front fallback : Code}

/-- The loop of a compare-exchange, which is also left when the values do not match. -/
lemma completes_compareLoop (haligned : (s₁.registers 2).toNat % n = 0)
    (hacted : ∀ s', Acted (loopRegisters .compareExchange) n
      (storedWord n .compareExchange value desired) s₁ s' → Q s')
    (hfallback : ∀ s', Attempting (loopRegisters .compareExchange) s₁ 0 s' →
      Completes (step e) (front ++ (loopItems .compareExchange n acquire release
        (fallback ++ endItems .compareExchange).length ++
          (fallback ++ endItems .compareExchange))) (front.length + 7) s' Q)
    (hleft : left ≠ 0) (hmost : left ≤ kAtomicExclusiveAttempts)
    (h : Attempting (loopRegisters .compareExchange) s₁ left s) :
    Completes (step e) (front ++ (loopItems .compareExchange n acquire release
      (fallback ++ endItems .compareExchange).length ++ (fallback ++ endItems .compareExchange)))
      front.length s Q := by
  induction left generalizing s with
  | zero => exact absurd rfl hleft
  | succ left ih =>
      obtain ⟨old, s₂, hload, hloaded⟩ := step_load (e := e)
        (f := storedWord n .compareExchange value desired) haligned h hmost acquire
      have hcompare := compare_loaded hn hoperand hloaded
      have hflagged : ∀ b, Loaded (loopRegisters .compareExchange) n
          (storedWord n .compareExchange value desired) s₁ left old { s₂ with zero := b } :=
        fun b => ⟨hloaded.within.zero b, hloaded.counter, hloaded.attempted, hloaded.result,
          hloaded.reserved, hloaded.unmatched⟩
      refine Completes.next (at_front (j := 0) rfl) hload
        (Completes.next (at_front (j := 1) rfl) rfl ?_)
      rw [hcompare]
      by_cases hmatch : old = value.setWidth (8 * n)
      · have hstored : storedWord n .compareExchange value desired old =
            some ((s₂.read 4).setWidth (8 * n)) := by
          rw [State.read_of_ne s₂ (by decide), hloaded.within.registers 4 (by decide), hdesired]
          exact if_pos hmatch
        refine Completes.next (at_front (j := 2) rfl)
          (step_branchNotEqual_of_zero (decide_eq_true hmatch)) ?_
        refine completes_store haligned front.length (hflagged _) hmost hstored
          (at_front (j := 3) rfl) (at_front (j := 4) rfl) (at_front (j := 5) rfl)
          (at_front (j := 6) rfl) ?_ ?_ hacted
          (fun s' hagain hzero => ih hzero (Nat.le_of_succ_le hmost) hagain) hfallback
        · simp only [loopItems, if_true, List.length_append, List.length_cons, List.length_nil]
          omega
        · omega
      · have hnone : storedWord n .compareExchange value desired old = none := if_neg hmatch
        -- the value that does not match is the result; only the reservation is dropped
        let s₃ : State := { s₂ with zero := decide (old = value.setWidth (8 * n)) }
        have hdone : Acted (loopRegisters .compareExchange) n
            (storedWord n .compareExchange value desired) s₁
            { s₃ with thread := { s₃.thread with reservation := none } } :=
          ⟨(hflagged _).within.thread _, old, (hloaded.unmatched hnone).congr rfl, hloaded.result⟩
        have hclear : (front ++ (loopItems .compareExchange n acquire release
            (fallback ++ endItems .compareExchange).length ++
              (fallback ++ endItems .compareExchange)))[front.length + 7 + fallback.length + 1]? =
            some .clearExclusive := by
          rw [← List.append_assoc (loopItems _ _ _ _ _)]
          refine at_back (j := 1) rfl ?_
          simp only [loopItems, if_true, List.length_append, List.length_cons, List.length_nil]
          omega
        have hstep : step e .clearExclusive s₃ =
            .next { s₃ with thread := { s₃.thread with reservation := none } } := rfl
        refine Completes.jump (at_front (j := 2) rfl)
          (step_branchNotEqual (decide_eq_false hmatch))
          (j := front.length + 7 + fallback.length + 1) ?_
          (Completes.next hclear hstep (Completes.done ?_ (hacted _ hdone)))
        · simp only [endItems, if_true, List.length_append, List.length_cons, List.length_nil]
          omega
        · simp only [loopItems, endItems, if_true, List.length_append, List.length_cons,
            List.length_nil]
          omega

end compareExchange

/-! ## The whole sequence -/

/-- The registers that the sequence uses. -/
def atomicRegisters : List Register := [0, 1, 2, 3, 4, 5, 6, 16]

section sequence

variable {e : Environment} {o : AtomicOpcode} {n base : Nat} {homes : List Home} {s₀ : State}

/-- Extending the operand stays within its register. -/
lemma extended_within : s₀.Within [3] (extended o n s₀) := by
  unfold extended
  split_ifs
  · exact (State.Within.refl [3] s₀).set (List.mem_singleton_self 3) _
  · exact .refl [3] s₀

/-- Extending the operand leaves the memory alone. -/
lemma extended_thread : (extended o n s₀).thread = s₀.thread := by
  unfold extended
  split_ifs
  · exact State.set_thread s₀ _ 3
  · rfl

/-- The operand keeps the bytes of the cell. -/
lemma setWidth_extended (hn : 8 * n ≤ 64) :
    ((extended o n s₀).registers 3).setWidth (8 * n) = (s₀.registers 3).setWidth (8 * n) := by
  unfold extended
  split_ifs
  · rw [State.set_registers _ _ _ (by decide), if_pos rfl, BitVec.setWidth_setWidth_of_le _ hn,
      BitVec.setWidth_eq, State.read_of_ne _ (by decide)]
  · rfl

/-- An expected value has no other bytes. -/
lemma extended_expected (hcompare : o = .compareExchange) :
    (extended o n s₀).registers 3 = ((s₀.registers 3).setWidth (8 * n)).setWidth 64 := by
  unfold extended
  split_ifs with hnarrow
  · rw [State.set_registers _ _ _ (by decide), if_pos rfl, State.read_of_ne _ (by decide)]
  · have hfull : 64 ≤ 8 * n := by
      rw [not_and] at hnarrow
      have hwide := hnarrow hcompare
      omega
    rw [BitVec.setWidth_setWidth_of_le _ hfull, BitVec.setWidth_eq]

/-- A state in front of the loop, for an operation that began in the state `s₀`. -/
structure Ready (o : AtomicOpcode) (n base : Nat) (homes : List Home) (s₀ s₁ : State) : Prop where
  prepared : Prepared o n homes base (s₀.registers 2) (s₁.registers 3) (s₀.registers 4) s₀ s₁
  words : ∀ h ∈ homes, s₁.words h = s₀.words h
  thread : s₁.thread = s₀.thread
  address : s₁.registers 2 = s₀.registers 2
  operand : (s₁.registers 3).setWidth (8 * n) = (s₀.registers 3).setWidth (8 * n)
  expected : o = .compareExchange →
    s₁.registers 3 = ((s₀.registers 3).setWidth (8 * n)).setWidth 64
  desired : s₁.registers 4 = s₀.registers 4
  counter : s₁.registers 6 = BitVec.ofNat 64 kAtomicExclusiveAttempts

/-- The instructions in front of the loop. -/
lemma ready_setup (hn : 8 * n ≤ 64) (hhomes : Homes 31 128 atomicRegisters base homes) :
    Ready o n base homes s₀ ((storeArguments 2 16 3 4 o n homes base (extended o n s₀)).set 6
      (BitVec.ofNat 64 kAtomicExclusiveAttempts)) := by
  have hretry : (6 : Register) ≠ 31 := by decide
  have hextended : ∀ r, r ≠ 3 → (extended o n s₀).registers r = s₀.registers r := by
    intro r hr
    exact extended_within.registers r (List.mem_singleton.not.mpr hr)
  have hregisters : ∀ r, r ≠ 16 → r ≠ 6 →
      ((storeArguments 2 16 3 4 o n homes base (extended o n s₀)).set 6
        (BitVec.ofNat 64 kAtomicExclusiveAttempts)).registers r =
          (extended o n s₀).registers r := by
    intro r h16 h6
    rw [State.set_registers _ _ _ hretry, if_neg h6, storeArguments_registers r h16]
  have hwords : ∀ h ∈ homes, (extended o n s₀).words h = s₀.words h := by
    intro h hh
    refine extended_within.words fun hword hmem => hhomes.registers h hh hword ?_
    rw [List.mem_singleton] at hmem
    rw [hmem]
    decide
  have hprepared := storeArguments_prepared (o := o) (n := n) 2
    (show (16 : Register) ≠ 31 by decide) (show (3 : Register) ≠ 16 by decide)
    (show (4 : Register) ≠ 16 by decide) hhomes.apart hhomes.below hwords
    extended_within.frame extended_within.stackPointer
  have hafter := hprepared.within
    ((State.Within.refl [6] _).set (List.mem_singleton_self 6)
      (BitVec.ofNat 64 kAtomicExclusiveAttempts))
  constructor
  · rw [hregisters 3 (by decide) (by decide), ← hextended 2 (by decide),
      ← hextended 4 (by decide)]
    exact hafter
  · intro h hh
    rw [← hwords h hh]
    refine State.words_congr (fun hword => ?_) ?_
    · have hfree := hhomes.registers h hh hword
      apply hregisters
      · intro heq
        rw [heq] at hfree
        exact hfree (by decide)
      · intro heq
        rw [heq] at hfree
        exact hfree (by decide)
    · rw [State.set_floats, storeArguments_floats]
  · rw [State.set_thread, storeArguments_thread, extended_thread]
  · exact (hregisters 2 (by decide) (by decide)).trans (hextended 2 (by decide))
  · rw [hregisters 3 (by decide) (by decide), setWidth_extended hn]
  · intro hcompare
    rw [hregisters 3 (by decide) (by decide), extended_expected hcompare]
  · exact (hregisters 4 (by decide) (by decide)).trans (hextended 4 (by decide))
  · rw [State.set_registers _ _ _ hretry, if_pos rfl]

/-- The fallback, and the branch behind it. -/
lemma completes_fallback {front : Code} {helper : Word} {resultSlot : Nat} {s : State}
    {Q : State → Prop} (hQ : Q (callFallback e 0 1 16 helper homes base resultSlot s)) :
    Completes (step e) (front ++ (fallbackItems helper homes base resultSlot ++ endItems o))
      front.length s Q := by
  refine Completes.straight (through_fallbackItems base homes helper resultSlot) ?_
  by_cases hcompare : o = .compareExchange
  · have hends : endItems o = [.branch 2, .clearExclusive] := if_pos hcompare
    rw [hends]
    refine Completes.jump (at_back (j := 0) rfl rfl) rfl ?_ (Completes.done rfl hQ)
    simp only [List.length_append, List.length_cons, List.length_nil]
    omega
  · have hends : endItems o = [.branch 1] := if_neg hcompare
    rw [hends]
    refine Completes.jump (at_back (j := 0) rfl rfl) rfl ?_ (Completes.done rfl hQ)
    simp only [List.length_append, List.length_cons, List.length_nil]
    omega

/-- **The sequence does the operation once, whatever the other threads do.** -/
theorem completes_items {host : Host} {lockSubwords acquire release : Bool} {helper : Word}
    {resultSlot : Nat} (hlittle : host.littleEndian = true)
    (hroutine : e.routine helper = fallbackRoutine host lockSubwords) (hn : n ∈ [1, 2, 4, 8])
    (ho : Retries o) (haligned : (s₀.registers 2).toNat % n = 0)
    (hhomes : Homes 31 128 atomicRegisters base homes) (hbase : base * 8 < 2 ^ 64)
    (hslot : base + kAtomicFallbackArgumentCount ≤ resultSlot) :
    Completes (step e) (items o n acquire release helper homes base resultSlot) 0 s₀
      (Operates o n homes base resultSlot 0 (s₀.registers 2) (s₀.registers 3) (s₀.registers 4)
        s₀) := by
  have hwidth : 8 * n ≤ 64 := by
    simp only [List.mem_cons, List.not_mem_nil, or_false] at hn
    omega
  have hready : Ready o n base homes s₀ ((storeArguments 2 16 3 4 o n homes base
      (extended o n s₀)).set 6 (BitVec.ofNat 64 kAtomicExclusiveAttempts)) :=
    ready_setup hwidth hhomes
  generalize hs₁ : (storeArguments 2 16 3 4 o n homes base (extended o n s₀)).set 6
    (BitVec.ofNat 64 kAtomicExclusiveAttempts) = s₁ at hready
  have hsetup : through (step e) (setupItems o n homes base) s₀ = some s₁ := by
    rw [through_setupItems, hs₁]
  let fallback := fallbackItems helper homes base resultSlot
  let code := setupItems o n homes base ++ (loopItems o n acquire release
    (fallback ++ endItems o).length ++ (fallback ++ endItems o))
  have hcode : items o n acquire release helper homes base resultSlot = code := by
    simp only [items, code, fallback, List.length_append]
  have hscratch : (loopRegisters o).scratch ⊆ atomicRegisters := by
    unfold loopRegisters
    dsimp only
    split_ifs <;> decide
  -- the ways out of the loop
  have hacted : ∀ s', Acted (loopRegisters o) n
      (storedWord n o (s₀.registers 3) (s₀.registers 4)) s₁ s' →
      Operates o n homes base resultSlot 0 (s₀.registers 2) (s₀.registers 3) (s₀.registers 4)
        s₀ s' := by
    intro s' hacted
    obtain ⟨hwithin, hacts⟩ := hacted
    have haddress : s₁.registers (loopRegisters o).address = s₀.registers 2 := hready.address
    rw [hready.thread, haddress] at hacts
    exact Operates.of_within hwithin (hhomes.mono hscratch) hready.words hready.prepared.frame
      hready.prepared.stackPointer hacts
  have hfallback : ∀ s', Attempting (loopRegisters o) s₁ 0 s' → Completes (step e) code
      ((setupItems o n homes base).length +
        (loopItems o n acquire release (fallback ++ endItems o).length).length) s'
      (Operates o n homes base resultSlot 0 (s₀.registers 2) (s₀.registers 3) (s₀.registers 4)
        s₀) := by
    intro s' hattempting
    have hlength : (setupItems o n homes base).length +
        (loopItems o n acquire release (fallback ++ endItems o).length).length =
        (setupItems o n homes base ++
          loopItems o n acquire release (fallback ++ endItems o).length).length :=
      List.length_append.symm
    rw [hlength]
    simp only [code]
    rw [← List.append_assoc]
    refine completes_fallback ?_
    have hattempted := hattempting.attempted
    rw [hready.thread] at hattempted
    exact (hready.prepared.within hattempting.within).operates hlittle hroutine hn ho
      hready.operand hbase hhomes (by decide) hslot (by decide) (by decide) hattempted le_rfl
  rw [hcode]
  refine Completes.first hsetup ?_
  have hstart : Attempting (loopRegisters o) s₁ kAtomicExclusiveAttempts s₁ :=
    .start hready.counter
  have haligned₁ : (s₁.registers 2).toNat % n = 0 := by
    rw [hready.address]
    exact haligned
  by_cases hcompare : o = .compareExchange
  · subst hcompare
    exact completes_compareLoop hwidth (hready.expected rfl) hready.desired haligned₁ hacted
      hfallback (by decide) le_rfl hstart
  · have hsix : (loopItems o n acquire release (fallback ++ endItems o).length).length = 6 := by
      obtain ⟨i, hitem⟩ := computeItem_singleton ho hcompare
      rw [loopItems, if_neg hcompare, hitem]
      rfl
    rw [hsix] at hfallback
    exact completes_updateLoop hwidth hready.operand haligned₁ ho hcompare hacted hfallback
      (by decide) le_rfl hstart

end sequence

end UniJit.Jit.AArch64.Atomics
