import UniJit.Jit.RetryLoop
import UniJit.Jit.RiscVAtomics

/-!
# Runs of the RISC-V sequences

What the instructions of an atomic operation make of a state, for every interference: one call of
the fallback, one atomic instruction, or the loop of a compare-exchange, which is an induction on
the attempts that are left.
-/

namespace UniJit.Jit.RiscV.Atomics

open UniJit.Ir hiding Instruction
open UniJit.Lib UniJit.Lib.SharedMemory UniJit.Lib.RiscVAtomics UniJit.Lib.CallMachine
  UniJit.Lib.Sequences UniJit.Runtime

/-! ## Straight code -/

section straight

variable {e : Environment} {s : State}

/-- The pair of instructions loads the immediate. -/
lemma through_moveImmediate (d : Register) (v : Word) :
    through (step e) (moveImmediateItems d v) s = some (s.set d v) := by
  rw [moveImmediateItems, through_cons rfl, through_cons rfl, State.set_set]
  rfl

/-- The stores save the homes. -/
lemma through_stores (homes : List Home) :
    through (step e) (homes.map .store) s = some (s.saveAll homes) := by
  induction homes generalizing s with
  | nil => rfl
  | cons h homes ih => exact ih

/-- The loads restore the homes. -/
lemma through_loads (homes : List Home) :
    through (step e) (homes.map .load) s = some (s.restoreAll homes) := by
  induction homes generalizing s with
  | nil => rfl
  | cons h homes ih => exact ih

/-- Half words and words are cut down to their bytes. -/
lemma through_extendItems {r : Register} (hr : r ≠ 0) {n : Nat} (hn : n = 4 ∨ n = 8) :
    through (step e) (extendItems r n) s =
      some (s.set r (((s.read r).setWidth (8 * n)).setWidth 64)) := by
  unfold extendItems
  split_ifs with hhalf
  · subst hhalf
    have hread : (s.set r (s.read r <<< 32)).read r = s.read r <<< 32 := by
      rw [State.read_of_ne _ hr, State.set_registers _ _ _ hr, if_pos rfl]
    rw [through_cons rfl, through_cons rfl, hread, State.set_set, shifts_word]
    rfl
  · obtain rfl : n = 8 := hn.resolve_left hhalf
    rw [BitVec.setWidth_eq, BitVec.setWidth_eq, State.set_read s hr]
    rfl

variable (o : AtomicOpcode) (width base : Nat) (homes : List Home)

/-- The call of the helper stores its arguments and restores the homes. -/
lemma through_helperItems (helper : Word) (resultSlot : Nat) :
    through (step e) (helperItems o width helper homes base resultSlot) s =
      some (callFallback e 10 11 6 helper homes base resultSlot
        (storeArguments 30 6 31 29 o width homes base s)) := by
  rw [helperItems, through_append, through_stores, Option.bind_some, through_append, argumentItems,
    through_cons rfl, through_append, through_moveImmediate, Option.bind_some, through_cons rfl,
    through_append, through_moveImmediate, Option.bind_some]
  change through (step e) (callItems helper homes base resultSlot) _ = _
  rw [callItems, through_cons rfl, through_append, through_moveImmediate, Option.bind_some,
    through_append, through_moveImmediate, Option.bind_some, through_append]
  change through (step e) (homes.map .load ++ _) _ = _
  rw [through_append, through_loads, Option.bind_some]
  rfl

end straight

/-! ## The fallback -/

/-- The registers that the sequences use. -/
def atomicRegisters : List Register := [6, 7, 10, 29, 30, 31]

section sequences

variable {e : Environment} {o : AtomicOpcode} {n base : Nat} {homes : List Home} {s₀ s : State}
  {host : Host} {lockSubwords : Bool} {helper : Word} {resultSlot : Nat}
  (hlittle : host.littleEndian = true)
  (hroutine : e.routine helper = fallbackRoutine host lockSubwords)
  (hhomes : Homes 0 64 atomicRegisters base homes) (hbase : base * 8 < 2 ^ 64)
  (hslot : base + kAtomicFallbackArgumentCount ≤ resultSlot)

include hlittle hroutine hhomes hbase hslot

/-- A call of the fallback finishes what has only been tried. -/
lemma operates_fallback {loads : Nat} (hn : n ∈ [1, 2, 4, 8]) (ho : Retries o)
    (hwithin : s₀.Within atomicRegisters s)
    (haddress : s.registers 30 = s₀.registers 30)
    (hoperand : (s.registers 31).setWidth (8 * n) = (s₀.registers 31).setWidth (8 * n))
    (hdesired : s.registers 29 = s₀.registers 29)
    (hattempted : Attempted s₀.thread loads s.thread) (hloads : loads ≤ kAtomicExclusiveAttempts) :
    Operates o n homes base resultSlot 10 (s₀.registers 30) (s₀.registers 31) (s₀.registers 29) s₀
      (callFallback e 10 11 6 helper homes base resultSlot
        (storeArguments 30 6 31 29 o n homes base s)) := by
  have hwords : ∀ h ∈ homes, s.words h = s₀.words h := by
    intro h hh
    exact hwithin.words (hhomes.registers h hh)
  have hprepared := storeArguments_prepared (o := o) (n := n) 30
    (show (6 : Register) ≠ 0 by decide) (show (31 : Register) ≠ 6 by decide)
    (show (29 : Register) ≠ 6 by decide) hhomes.apart hhomes.below hwords hwithin.frame
    hwithin.stackPointer
  rw [State.read_of_ne s (by decide), State.read_of_ne s (by decide),
    State.read_of_ne s (by decide), haddress, hdesired] at hprepared
  refine hprepared.operates hlittle hroutine hn ho hoperand hbase hhomes (by decide) hslot
    (by decide) (by decide) ?_ hloads
  rw [storeArguments_thread]
  exact hattempted

/-- A narrow cell is left to the fallback. -/
lemma completes_helperItems (hn : n ∈ [1, 2, 4, 8]) (ho : Retries o) :
    Completes (step e) (helperItems o n helper homes base resultSlot) 0 s₀
      (Operates o n homes base resultSlot 10 (s₀.registers 30) (s₀.registers 31)
        (s₀.registers 29) s₀) := by
  refine Completes.of_through (through_helperItems o n base homes helper resultSlot) ?_
  exact operates_fallback hlittle hroutine hhomes hbase hslot hn ho (.refl atomicRegisters s₀) rfl
    rfl rfl (.start s₀.thread) (Nat.zero_le _)

end sequences

/-! ## Atomic instructions -/

section update

variable {e : Environment} {o : AtomicOpcode} {n base : Nat} {homes : List Home} {s₀ : State}
  {resultSlot : Nat}

/-- The single-instruction update stores what the operation does. -/
lemma apply_updateKind {k : Nat} (ho : Retries o) (hcompare : o ≠ .compareExchange)
    (old operand desired : BitVec k) :
    some ((updateKind o).apply old operand) = storedOver o operand desired old := by
  cases o with
  | load => exact absurd rfl ho.1
  | store => exact absurd rfl ho.2
  | compareExchange => exact absurd rfl hcompare
  | exchange => rfl
  | fetchAdd => rfl
  | fetchAnd => rfl
  | fetchOr => rfl
  | fetchXor => rfl

/-- An exchange or a fetching operation is one instruction. -/
lemma completes_update {acquire release : Bool} (hn : n = 4 ∨ n = 8) (ho : Retries o)
    (hcompare : o ≠ .compareExchange) (haligned : (s₀.registers 30).toNat % n = 0)
    (hhomes : Homes 0 64 atomicRegisters base homes) :
    Completes (step e) (.update (updateKind o) n acquire release 10 31 30 :: extendItems 10 n) 0 s₀
      (Operates o n homes base resultSlot 10 (s₀.registers 30) (s₀.registers 31)
        (s₀.registers 29) s₀) := by
  have hten : (10 : Register) ≠ 0 := by decide
  have hwidth : 8 * n ≤ 64 := by omega
  have haddress : s₀.read 30 = s₀.registers 30 := State.read_of_ne s₀ (by decide)
  have hoperand : s₀.read 31 = s₀.registers 31 := State.read_of_ne s₀ (by decide)
  have hstep := step_update (e := e) hn (by rw [haddress]; exact haligned) (updateKind o) acquire
    release 10 31
  have hf : (fun old => some ((updateKind o).apply old ((s₀.registers 31).setWidth (8 * n)))) =
      storedWord n o (s₀.registers 31) (s₀.registers 29) := by
    funext old
    exact apply_updateKind ho hcompare _ _ _
  rw [haddress, hoperand, hf] at hstep
  generalize hupdate : e.update s₀.thread n (s₀.registers 30).toNat
    (storedWord n o (s₀.registers 31) (s₀.registers 29)) = outcome at hstep
  have hacts : ActsOnce (s₀.registers 30).toNat
      (storedWord n o (s₀.registers 31) (s₀.registers 29)) kAtomicExclusiveAttempts s₀.thread
      (e.update s₀.thread n (s₀.registers 30).toNat
        (storedWord n o (s₀.registers 31) (s₀.registers 29))).2
      (e.update s₀.thread n (s₀.registers 30).toNat
        (storedWord n o (s₀.registers 31) (s₀.registers 29))).1 :=
    ActsOnce.update (.start s₀.thread) (Nat.zero_le kAtomicExclusiveAttempts)
  rw [hupdate] at hacts
  have hthrough : through (step e)
      (.update (updateKind o) n acquire release 10 31 30 :: extendItems 10 n) s₀ =
      some ({ s₀ with thread := outcome.2 }.set 10 (outcome.1.setWidth 64)) := by
    rw [through_cons hstep, through_extendItems hten hn, State.read_of_ne _ hten,
      State.set_registers _ _ _ hten, if_pos rfl, State.set_set, setWidth_signExtend hwidth]
  have hwithin : s₀.Within atomicRegisters
      ({ s₀ with thread := outcome.2 }.set 10 (outcome.1.setWidth 64)) :=
    ((State.Within.refl atomicRegisters s₀).thread _).set (by decide) _
  refine Completes.of_through hthrough (Operates.of_within hwithin hhomes (fun _ _ => rfl)
    (fun _ _ _ => rfl) rfl ⟨outcome.1, ?_, ?_⟩)
  · rw [State.set_thread]
    exact hacts
  · rw [State.set_registers _ _ _ hten, if_pos rfl]

end update

/-! ## The loop of a compare-exchange -/

/-- The registers of the loop. -/
def loopRegisters : RetryRegisters 0 where
  result := 10
  address := 30
  desired := 29
  status := 6
  counter := 7
  scratch := [6, 7, 10]
  distinct := by decide
  result_mem := by decide
  status_mem := by decide
  counter_mem := by decide
  address_notMem := by decide

section loop

variable {e : Environment} {n left : Nat} {acquire release : Bool} {value desired : Word}
  {s₁ s : State} {Q : State → Prop} (hn : n = 4 ∨ n = 8)
  (haligned : (s₁.registers 30).toNat % n = 0)

include hn haligned

variable (acquire) in
/-- The load of an attempt, cut down to the cell. -/
lemma through_load {f : BitVec (8 * n) → Option (BitVec (8 * n))}
    (h : Attempting loopRegisters s₁ (left + 1) s) (hleft : left < kAtomicExclusiveAttempts) :
    ∃ old s', through (step e) (.loadReserved n acquire 10 30 :: extendItems 10 n) s = some s' ∧
      Loaded loopRegisters n f s₁ left old s' := by
  have hten : (10 : Register) ≠ 0 := by decide
  have hwidth : 8 * n ≤ 64 := by omega
  have haddress : s.read 30 = s₁.registers 30 := h.read_address
  refine ⟨_, _, ?_, h.load (e := e.toInterference) hleft⟩
  rw [through_cons (step_loadReserved hn (by rw [haddress]; exact haligned) acquire 10),
    through_extendItems hten hn, State.read_of_ne _ hten, State.set_registers _ _ _ hten, if_pos rfl,
    State.set_set, setWidth_signExtend hwidth]
  rfl

variable (hoperand : s₁.registers 31 = (value.setWidth (8 * n)).setWidth 64)
  (hdesired : s₁.registers 29 = desired) {front rest : Code}

include hoperand hdesired

/-- The loop is left when the values do not match, when a store succeeds, or without attempts. -/
lemma completes_loop
    (hacted : ∀ s', Acted loopRegisters n (storedWord n .compareExchange value desired) s₁ s' → Q s')
    (hfallback : ∀ s', Attempting loopRegisters s₁ 0 s' →
      Completes (step e) (front ++ (loopItems n acquire release rest.length ++ rest))
        (front.length + (loopItems n acquire release rest.length).length) s' Q)
    (hleft : left ≠ 0) (hmost : left ≤ kAtomicExclusiveAttempts)
    (h : Attempting loopRegisters s₁ left s) :
    Completes (step e) (front ++ (loopItems n acquire release rest.length ++ rest)) front.length
      s Q := by
  induction left generalizing s with
  | zero => exact absurd rfl hleft
  | succ left ih =>
      have hwidth : 8 * n ≤ 64 := by omega
      obtain ⟨old, s₂, hload, hloaded⟩ := through_load acquire (e := e)
        (f := storedWord n .compareExchange value desired) hn haligned h hmost
      have hresult : s₂.read 10 = old.setWidth 64 := hloaded.read_result
      have hexpected : s₂.read 31 = (value.setWidth (8 * n)).setWidth 64 := by
        rw [State.read_of_ne s₂ (by decide), hloaded.within.registers 31 (by decide), hoperand]
      have hcompare : s₂.read 10 = s₂.read 31 ↔ old = value.setWidth (8 * n) := by
        rw [hresult, hexpected, setWidth_inj hwidth]
      let loads : Code := .loadReserved n acquire 10 30 :: extendItems 10 n
      let stores : Code := [.branchNotEqual 10 31 (rest.length + 5),
        .storeConditional n release 6 29 30, .branchZero 6 (rest.length + 3), .decrement 7,
        .branchNonzero 7 (-(5 + (extendItems 10 n).length))]
      have hloop : loopItems n acquire release rest.length = loads ++ stores := rfl
      have hcode : front ++ (loopItems n acquire release rest.length ++ rest) =
          front ++ (loads ++ (stores ++ rest)) := by
        rw [hloop, List.append_assoc]
      have hlength : loads.length = 1 + (extendItems 10 n).length := by
        rw [Nat.add_comm]
        rfl
      have hlast : front.length + (loopItems n acquire release rest.length).length =
          front.length + loads.length + 5 := by
        rw [hloop, List.length_append, Nat.add_assoc]
        rfl
      rw [hcode, hlast] at hfallback
      rw [hcode] at ih ⊢
      refine Completes.straight hload ?_
      by_cases hmatch : old = value.setWidth (8 * n)
      · have hstored : storedWord n .compareExchange value desired old =
            some ((s₂.read 29).setWidth (8 * n)) := by
          rw [State.read_of_ne s₂ (by decide), hloaded.within.registers 29 (by decide), hdesired]
          exact if_pos hmatch
        have haddress : s₂.read 30 = s₁.registers 30 := hloaded.read_address
        refine Completes.next (at_back (j := 0) rfl rfl)
          (step_branchNotEqual_of_eq (hcompare.mpr hmatch)) (Completes.next (at_back (j := 1) rfl rfl)
            (step_storeConditional hn (by rw [haddress]; exact haligned) release 6 29) ?_)
        obtain ⟨hstatus, hdid⟩ | ⟨hstatus, hattempting⟩ :=
          hloaded.store (e := e.toInterference) hstored rfl
        · refine Completes.jump (at_back (j := 2) rfl rfl) (step_branchZero hstatus)
            (j := (front ++ (loads ++ (stores ++ rest))).length) ?_
            (Completes.done rfl (hacted _ hdid))
          simp only [stores, List.length_append, List.length_cons, List.length_nil]
          omega
        · refine Completes.next (at_back (j := 2) rfl rfl) (step_branchZero_of_ne hstatus)
            (Completes.next (at_back (j := 3) rfl rfl) rfl ?_)
          have hcounter := hattempting.read_counter_eq_zero (Nat.le_of_succ_le hmost)
          by_cases hzero : left = 0
          · subst hzero
            exact Completes.next (at_back (j := 4) rfl rfl)
              (step_branchNonzero_of_eq (hcounter.mpr rfl)) (hfallback _ hattempting)
          · refine Completes.jump (at_back (j := 4) rfl rfl)
              (step_branchNonzero (mt hcounter.mp hzero)) (j := front.length) ?_
              (ih hzero (Nat.le_of_succ_le hmost) hattempting)
            omega
      · have hnone : storedWord n .compareExchange value desired old = none := if_neg hmatch
        refine Completes.jump (at_back (j := 0) rfl rfl)
          (step_branchNotEqual (mt hcompare.mp hmatch))
          (j := (front ++ (loads ++ (stores ++ rest))).length) ?_
          (Completes.done rfl (hacted _ ⟨hloaded.within, old, hloaded.unmatched hnone,
            hloaded.result⟩))
        simp only [stores, List.length_append, List.length_cons, List.length_nil]
        omega

end loop

/-! ## The whole sequences -/

section items

variable {e : Environment} {o : AtomicOpcode} {n base : Nat} {homes : List Home} {s₀ : State}

/-- **The sequences do the operation once, whatever the other threads do.** -/
theorem completes_items {host : Host} {lockSubwords acquire release : Bool} {helper : Word}
    {resultSlot : Nat} (hlittle : host.littleEndian = true)
    (hroutine : e.routine helper = fallbackRoutine host lockSubwords) (hn : n ∈ [1, 2, 4, 8])
    (ho : Retries o) (haligned : (s₀.registers 30).toNat % n = 0)
    (hhomes : Homes 0 64 atomicRegisters base homes) (hbase : base * 8 < 2 ^ 64)
    (hslot : n < 4 ∨ o = .compareExchange → base + kAtomicFallbackArgumentCount ≤ resultSlot) :
    Completes (step e) (items o n acquire release helper homes base resultSlot) 0 s₀
      (Operates o n homes base resultSlot 10 (s₀.registers 30) (s₀.registers 31)
        (s₀.registers 29) s₀) := by
  unfold items
  split_ifs with hnarrow hcompare
  · exact completes_helperItems hlittle hroutine hhomes hbase (hslot (.inl hnarrow)) hn ho
  · have hwide : n = 4 ∨ n = 8 := by
      simp only [List.mem_cons, List.not_mem_nil, or_false] at hn
      omega
    exact completes_update hwide ho hcompare haligned hhomes
  · have hwide : n = 4 ∨ n = 8 := by
      simp only [List.mem_cons, List.not_mem_nil, or_false] at hn
      omega
    have hwidth : 8 * n ≤ 64 := by omega
    rw [not_not] at hcompare
    subst hcompare
    have hthirtyOne : (31 : Register) ≠ 0 := by decide
    have hseven : (7 : Register) ≠ 0 := by decide
    let s₁ : State := (s₀.set 31 (((s₀.registers 31).setWidth (8 * n)).setWidth 64)).set 7
      (BitVec.ofNat 64 kAtomicExclusiveAttempts)
    have hsetup : through (step e) (extendItems 31 n ++
        moveImmediateItems 7 (BitVec.ofNat 64 kAtomicExclusiveAttempts)) s₀ = some s₁ := by
      rw [through_append, through_extendItems hthirtyOne hwide, Option.bind_some,
        through_moveImmediate, State.read_of_ne _ hthirtyOne]
    have hwithin₁ : s₀.Within atomicRegisters s₁ :=
      ((State.Within.refl atomicRegisters s₀).set (by decide) _).set (by decide) _
    have hthread : s₁.thread = s₀.thread := by
      rw [State.set_thread, State.set_thread]
    have hregisters : ∀ r, r ≠ 7 → r ≠ 31 → s₁.registers r = s₀.registers r := by
      intro r h7 h31
      rw [State.set_registers _ _ _ hseven, if_neg h7, State.set_registers _ _ _ hthirtyOne,
        if_neg h31]
    have hoperand : s₁.registers 31 = ((s₀.registers 31).setWidth (8 * n)).setWidth 64 := by
      rw [State.set_registers _ _ _ hseven, if_neg (by decide),
        State.set_registers _ _ _ hthirtyOne, if_pos rfl]
    have haddress : s₁.registers 30 = s₀.registers 30 := hregisters 30 (by decide) (by decide)
    have hdesired : s₁.registers 29 = s₀.registers 29 := hregisters 29 (by decide) (by decide)
    have hstart : Attempting loopRegisters s₁ kAtomicExclusiveAttempts s₁ := by
      apply Attempting.start
      exact (State.set_registers _ _ _ hseven).trans (if_pos rfl)
    have hfree : loopRegisters.scratch ⊆ atomicRegisters := by decide
    let fallback := helperItems .compareExchange n helper homes base resultSlot
    have hrest : fallback.length + 1 = (fallback ++ [Instruction.branch 1]).length := by
      rw [List.length_append]
      rfl
    refine Completes.first hsetup ?_
    change Completes _ (_ ++ (loopItems n acquire release (fallback.length + 1) ++
      (fallback ++ [.branch 1]))) _ _ _
    rw [hrest]
    refine completes_loop hwide (by rw [haddress]; exact haligned) hoperand hdesired ?_ ?_
      (by decide) le_rfl hstart
    · intro s' hacted
      obtain ⟨hwithin, hacts⟩ := hacted
      have hloopAddress : s₁.registers loopRegisters.address = s₀.registers 30 := haddress
      rw [hthread, hloopAddress] at hacts
      exact Operates.of_within (hwithin₁.trans (hwithin.mono hfree)) hhomes (fun _ _ => rfl)
        (fun _ _ _ => rfl) rfl hacts
    · intro s' hattempting
      have hwithin := hattempting.within
      have hattempted := hattempting.attempted
      rw [hthread] at hattempted
      have hdone := operates_fallback (e := e) (o := .compareExchange) hlittle hroutine hhomes
        hbase (hslot (.inr rfl)) hn ho (hwithin₁.trans (hwithin.mono hfree))
        ((hwithin.registers 30 (by decide)).trans haddress)
        (by rw [hwithin.registers 31 (by decide), hoperand,
          BitVec.setWidth_setWidth_of_le _ hwidth, BitVec.setWidth_eq])
        ((hwithin.registers 29 (by decide)).trans hdesired) hattempted le_rfl
      rw [← List.append_assoc, ← List.length_append]
      refine Completes.straight (through_helperItems .compareExchange n base homes helper
        resultSlot) (Completes.jump (at_back (j := 0) rfl rfl) rfl ?_ (Completes.done rfl hdone))
      simp only [List.length_append, List.length_cons, List.length_nil]
      omega

end items

end UniJit.Jit.RiscV.Atomics
