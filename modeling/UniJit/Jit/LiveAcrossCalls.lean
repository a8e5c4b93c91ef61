import UniJit.Jit.ControlFlowAllocator

/-!
# Values that are live across a call

The code generators save some registers around a call and restore them behind it. In a straight line
these are the registers of the values that are used later; for a control-flow graph the allocator
records them when its scan reaches the call, from the active positions of both banks.

`ListsLive` says what such a record is: exactly the values of earlier positions that hold a register
and are used behind the call. It only speaks of earlier positions, and these keep their registers,
so what holds when the scan passes the call still holds when it is over.
-/

namespace UniJit.Jit

open UniJit.Ir UniJit.Lib

/-! ## Control-flow graphs -/

section controlFlow

variable (f : ControlFlowFunction) (vectorMode : VectorRegisterMode)

/-- The values listed at the call of position `i` of a block. -/
def ListsLive (block : BasicBlock) (lastUse : Nat → Nat) (registers : List (Option Nat)) (i : Nat)
    (live : List Value) : Prop :=
  live.Nodup ∧ ∀ u, u ∈ live ↔ ∃ p < i, block.instructions[p]? = some u ∧
    (registerAt registers block p).isSome ∧ i < lastUse p

/-- Registers are only given to values that have a bank. -/
def Banked (block : BasicBlock) (registers : List (Option Nat)) : Prop :=
  ∀ p, (registerAt registers block p).isSome → (positionBank f vectorMode block p).isSome

/-- What the records hold after the positions of a block below `i`, started from `base`. -/
structure LiveInv (block : BasicBlock) (lastUse : Nat → Nat) (base : List (List Value)) (i : Nat)
    (s : BlockScan) : Prop where
  length : s.liveAcrossCalls.length = f.nodes.length
  pending : ∀ (p : Nat) v, i ≤ p → block.instructions[p]? = some v →
    s.liveAcrossCalls.getD v.index [] = []
  listed : ∀ (p : Nat) v, p < i → block.instructions[p]? = some v → isCallNode f v = true →
    ListsLive block lastUse s.registers p (s.liveAcrossCalls.getD v.index [])
  frame : ∀ k, (∀ p : Nat, block.instructions[p]?.map Value.index ≠ some k) →
    s.liveAcrossCalls.getD k [] = base.getD k []
  banked : Banked f vectorMode block s.registers

variable {f vectorMode} {requirements : StackMapRequirements} {reuseFinalFloatLhs : Bool}
  {wordRegisterCount simdRegisterCount : Nat}

/-- Which values are listed depends on the registers of earlier instructions only. -/
lemma ListsLive.congr {block : BasicBlock} {lastUse : Nat → Nat}
    {registers registers' : List (Option Nat)} {i : Nat} {live : List Value}
    (h : ListsLive block lastUse registers i live)
    (hsame : ∀ p < i, registerAt registers' block p = registerAt registers block p) :
    ListsLive block lastUse registers' i live := by
  refine ⟨h.1, fun u => (h.2 u).trans ?_⟩
  constructor
  · rintro ⟨p, hp, hu, hreg, hlast⟩
    exact ⟨p, hp, hu, by rwa [hsame p hp], hlast⟩
  · rintro ⟨p, hp, hu, hreg, hlast⟩
    exact ⟨p, hp, hu, by rwa [← hsame p hp], hlast⟩

/-- A position with a register has one in its bank. -/
lemma positionRegister_of_banked {block : BasicBlock} {registers : List (Option Nat)} {p : Nat}
    (hbanked : Banked f vectorMode block registers) (hreg : (registerAt registers block p).isSome) :
    ∃ bank r, positionBank f vectorMode block p = some bank ∧
      registerAt registers block p = some r ∧
      positionRegister f vectorMode block registers bank p = some r := by
  obtain ⟨bank, hbank⟩ := Option.isSome_iff_exists.mp (hbanked p hreg)
  obtain ⟨r, hr⟩ := Option.isSome_iff_exists.mp hreg
  exact ⟨bank, r, hbank, hr, by rw [positionRegister, if_pos hbank, hr]⟩

/-- **The record**: the active positions that are used later are the ones that hold a register and
are used later. -/
lemma listsLive_active (h : f.Owned) {b i : Nat} {block : BasicBlock} {lastUse : Nat → Nat}
    {base s : BlockScan} (hblock : f.blocks[b]? = some block)
    (hs : BlockInv f reuseFinalFloatLhs vectorMode wordRegisterCount simdRegisterCount block lastUse
      base i s) (hbanked : Banked f vectorMode block s.registers) :
    ListsLive block lastUse s.registers i
      ((((s.banks .word).active ++ (s.banks .simd).active).filter (i < lastUse ·)).filterMap
        (block.instructions[·]?)) := by
  have hbank : ∀ bank p, p ∈ (s.banks bank).active → positionBank f vectorMode block p = some bank ∧
      (registerAt s.registers block p).isSome := by
    intro bank p hp
    obtain ⟨r, hr⟩ := (hs.bank bank).active_reg p hp
    unfold positionRegister at hr
    split_ifs at hr with hposition
    exact ⟨hposition, by rw [hr]; rfl⟩
  have hactive : ∀ p, p ∈ (s.banks .word).active ++ (s.banks .simd).active → p < i ∧
      (registerAt s.registers block p).isSome := by
    intro p hp
    rcases List.mem_append.mp hp with hp | hp
    · exact ⟨(hs.bank .word).active_lt p hp, (hbank .word p hp).2⟩
    · exact ⟨(hs.bank .simd).active_lt p hp, (hbank .simd p hp).2⟩
  constructor
  · refine List.Nodup.filterMap ?_ (List.Nodup.filter _ ?_)
    · intro p q v hp hq
      exact index_inj h hblock hp hq rfl
    · refine (hs.bank .word).active_nodup.append (hs.bank .simd).active_nodup ?_
      intro p hword hsimd
      have hsame := (hbank .word p hword).1.symm.trans (hbank .simd p hsimd).1
      exact absurd (Option.some.inj hsame) (by decide)
  · intro u
    simp only [List.mem_filterMap, List.mem_filter, decide_eq_true_eq]
    constructor
    · rintro ⟨p, ⟨hp, hlast⟩, hu⟩
      exact ⟨p, (hactive p hp).1, hu, (hactive p hp).2, hlast⟩
    · rintro ⟨p, hp, hu, hreg, hlast⟩
      refine ⟨p, ⟨?_, hlast⟩, hu⟩
      obtain ⟨bank, r, -, -, hr⟩ := positionRegister_of_banked hbanked hreg
      have hmem : p ∈ (s.banks bank).active := by
        by_contra hnot
        have hretired := (hs.bank bank).retired p r hr hnot
        omega
      cases bank with
      | word => exact List.mem_append_left _ hmem
      | simd => exact List.mem_append_right _ hmem

variable (f vectorMode reuseFinalFloatLhs) in
/-- The register choice only gives a register to the value at hand, if it has a bank. -/
lemma chooseRegister_registers (owners : Owners) (b : Nat) (block : BasicBlock)
    (lastUse : Nat → Nat) (s : BlockScan) (v : Value) (i : Nat) :
    let t := chooseRegister f reuseFinalFloatLhs vectorMode owners b block lastUse s v i
    t.liveAcrossCalls = s.liveAcrossCalls ∧ (t.registers = s.registers ∨
      ∃ bank r, registerBank (f.valueType v) vectorMode = some bank ∧
        t.registers = s.registers.set v.index (some r)) := by
  unfold chooseRegister
  cases hbank : registerBank (f.valueType v) vectorMode with
  | none => exact ⟨rfl, .inl rfl⟩
  | some bank =>
      dsimp only
      split
      · exact ⟨rfl, .inr ⟨bank, _, rfl, rfl⟩⟩
      · split
        · exact ⟨rfl, .inl rfl⟩
        · exact ⟨rfl, .inr ⟨bank, _, rfl, rfl⟩⟩

variable (f) in
/-- What noting live values does to the records: a call receives its list. -/
lemma note_liveAcrossCalls (block : BasicBlock) (lastUse : Nat → Nat) (s : BlockScan) (v : Value)
    (i : Nat) :
    let t := requireLiveStack f block lastUse (noteLiveAcross f block lastUse s v i) v i
    t.registers = s.registers ∧ t.banks = s.banks ∧ t.liveAcrossCalls =
      if isCallNode f v then s.liveAcrossCalls.modify v.index
        (· ++ ((((s.banks .word).active ++ (s.banks .simd).active).filter (i < lastUse ·)).filterMap
          (block.instructions[·]?)))
      else s.liveAcrossCalls := by
  unfold requireLiveStack noteLiveAcross
  dsimp only
  split_ifs <;> exact ⟨rfl, rfl, rfl⟩

/-- The registers of the other positions, and of the other blocks, stay. -/
lemma registerAt_set_of_ne {block : BasicBlock} {registers : List (Option Nat)} {v : Value} {r p : Nat}
    (hne : ∀ u, block.instructions[p]? = some u → v.index ≠ u.index) :
    registerAt (registers.set v.index (some r)) block p = registerAt registers block p := by
  unfold registerAt
  cases hu : block.instructions[p]? with
  | none => rfl
  | some u => simp [List.getD, List.getElem?_set_ne (hne u hu)]

/-- Giving a register of its bank keeps the values banked. -/
lemma Banked.set (h : f.Owned) {b i r : Nat} {block : BasicBlock} {v : Value}
    {registers : List (Option Nat)} {bank : RegisterBank} (hblock : f.blocks[b]? = some block)
    (hv : block.instructions[i]? = some v)
    (hbank : registerBank (f.valueType v) vectorMode = some bank)
    (hbanked : Banked f vectorMode block registers) :
    Banked f vectorMode block (registers.set v.index (some r)) := by
  intro p hreg
  by_cases hp : p = i
  · rw [hp, positionBank, hv, Option.bind_some, hbank]
    rfl
  · rw [registerAt_set_of_ne fun u hu heq => hp (index_inj h hblock hv hu heq).symm] at hreg
    exact hbanked p hreg

/-- Modifying one entry changes no other. -/
lemma getD_modify {α : Type} {d : α} {as : List α} {g : α → α} {k n : Nat} (hn : n < as.length) :
    (as.modify n g).getD k d = if k = n then g (as.getD k d) else as.getD k d := by
  simp only [List.getD, List.getElem?_modify]
  by_cases heq : n = k
  · subst heq
    simp [hn]
  · simp [heq, Ne.symm heq]

/-- **Step lemma** of the records. -/
lemma LiveInv.step (h : f.Owned) {b i : Nat} {block : BasicBlock} {v : Value}
    {lastUse : Nat → Nat} {base s : BlockScan} {live : List (List Value)}
    (hblock : f.blocks[b]? = some block) (hv : block.instructions[i]? = some v)
    (hs : BlockInv f reuseFinalFloatLhs vectorMode wordRegisterCount simdRegisterCount block lastUse
      base i s) (hlive : LiveInv f vectorMode block lastUse live i s) :
    LiveInv f vectorMode block lastUse live (i + 1)
      (blockScanStep f reuseFinalFloatLhs vectorMode (assignOwners f) b block lastUse s (v, i)) := by
  obtain ⟨hregisters, -, hnoted⟩ := note_liveAcrossCalls f block lastUse s v i
  obtain ⟨hkept, hset⟩ := chooseRegister_registers f vectorMode reuseFinalFloatLhs (assignOwners f) b
    block lastUse (requireLiveStack f block lastUse (noteLiveAcross f block lastUse s v i) v i) v i
  rw [hregisters] at hset
  change LiveInv f vectorMode block lastUse live (i + 1) (chooseRegister f reuseFinalFloatLhs
    vectorMode (assignOwners f) b block lastUse
    (requireLiveStack f block lastUse (noteLiveAcross f block lastUse s v i) v i) v i)
  generalize chooseRegister f reuseFinalFloatLhs vectorMode (assignOwners f) b block lastUse
    (requireLiveStack f block lastUse (noteLiveAcross f block lastUse s v i) v i) v i = t
    at hkept hset ⊢
  have hlt : v.index < s.liveAcrossCalls.length := by
    rw [hlive.length]
    exact (h.valid hblock hv).2
  have hlists := hkept.trans hnoted
  -- a record other than the one of the instruction at hand stays
  have hothers : ∀ k, k ≠ v.index →
      t.liveAcrossCalls.getD k [] = s.liveAcrossCalls.getD k [] := by
    intro k hk
    rw [hlists]
    split_ifs
    · rw [getD_modify hlt, if_neg hk]
    · rfl
  have hindex : ∀ (p : Nat) u, p ≠ i → block.instructions[p]? = some u → u.index ≠ v.index :=
    fun p u hp hu heq => hp (index_inj h hblock hu hv heq)
  have hearlier : ∀ p, p ≠ i → registerAt t.registers block p = registerAt s.registers block p := by
    intro p hp
    rcases hset with hset | ⟨bank, r, -, hset⟩
    · rw [hset]
    · rw [hset]
      exact registerAt_set_of_ne fun u hu => (hindex p u hp hu).symm
  constructor
  case length =>
    rw [hlists, ← hlive.length]
    split_ifs
    · exact List.length_modify _ _ _
    · rfl
  case pending =>
    intro p u hp hu
    rw [hothers _ (hindex p u (by omega) hu)]
    exact hlive.pending p u (by omega) hu
  case listed =>
    intro p u hp hu hcall
    by_cases heq : p = i
    · subst heq
      obtain rfl := Option.some.inj (hu.symm.trans hv)
      rw [hlists, if_pos hcall, getD_modify hlt, if_pos rfl, hlive.pending p u le_rfl hu,
        List.nil_append]
      exact (listsLive_active h hblock hs hlive.banked).congr fun q hq => hearlier q hq.ne
    · rw [hothers _ (hindex p u heq hu)]
      exact (hlive.listed p u (by omega) hu hcall).congr fun q hq => hearlier q (by omega)
  case frame =>
    intro k hk
    rw [hothers k]
    · exact hlive.frame k hk
    · intro heq
      exact hk i (by rw [hv, Option.map_some, heq])
  case banked =>
    rcases hset with hset | ⟨bank, r, hbank, hset⟩
    · rw [hset]
      exact hlive.banked
    · rw [hset]
      exact hlive.banked.set h hblock hv hbank

/-- The records after the scan of a whole block. -/
lemma scanBlock_live (h : f.Owned) {b : Nat} {block : BasicBlock} {s : BlockScan}
    (hblock : f.blocks[b]? = some block) (hlength : s.registers.length = f.nodes.length)
    (hflags : s.needsStackSlot.length = f.nodes.length)
    (hpending : ∀ v ∈ block.instructions, s.registers.getD v.index none = none)
    (hlists : s.liveAcrossCalls.length = f.nodes.length)
    (hempty : ∀ v ∈ block.instructions, s.liveAcrossCalls.getD v.index [] = []) :
    LiveInv f vectorMode block
      (fun p => (blockLastUses f requirements (assignOwners f) b block).getD p 0) s.liveAcrossCalls
      block.instructions.length
      (scanBlock f wordRegisterCount simdRegisterCount requirements reuseFinalFloatLhs vectorMode
        (assignOwners f) s (block, b)) := by
  simp only [scanBlock]
  set lastUse := fun p => (blockLastUses f requirements (assignOwners f) b block).getD p 0
  set start : BlockScan := { s with
    banks := fun bank => Bank.full (registerCount wordRegisterCount simdRegisterCount bank) }
  have hnone : ∀ p, registerAt s.registers block p = none := by
    intro p
    unfold registerAt
    cases hv : block.instructions[p]? with
    | none => rfl
    | some v => exact hpending v (List.mem_of_getElem? hv)
  have hstart : LiveInv f vectorMode block lastUse s.liveAcrossCalls 0 start := by
    refine ⟨hlists, fun p v _ hv => hempty v (List.mem_of_getElem? hv), fun p v hp => ?_,
      fun k _ => rfl, fun p hreg => ?_⟩
    · exact absurd hp (Nat.not_lt_zero p)
    · rw [hnone p] at hreg
      cases hreg
  have hrun := foldl_zipIdx_invariant
    (fun i t => BlockInv f reuseFinalFloatLhs vectorMode wordRegisterCount simdRegisterCount block
      lastUse s i t ∧ LiveInv f vectorMode block lastUse s.liveAcrossCalls i t)
    ⟨BlockInv.start hlength hflags hpending, hstart⟩
    fun i v t hv ht => ⟨ht.1.step h hblock hv, ht.2.step h hblock hv ht.1⟩
  exact hrun.2

/-- What the records hold after the blocks below `b`. -/
structure BlocksLiveInv (f : ControlFlowFunction) (requirements : StackMapRequirements)
    (vectorMode : VectorRegisterMode) (b : Nat) (s : BlockScan) : Prop where
  length : s.liveAcrossCalls.length = f.nodes.length
  pending : ∀ b' block, b ≤ b' → f.blocks[b']? = some block →
    ∀ v ∈ block.instructions, s.liveAcrossCalls.getD v.index [] = []
  listed : ∀ b' block, b' < b → f.blocks[b']? = some block → Banked f vectorMode block s.registers ∧
    ∀ (i : Nat) v, block.instructions[i]? = some v → isCallNode f v = true →
      ListsLive block (fun p => (blockLastUses f requirements (assignOwners f) b' block).getD p 0)
        s.registers i (s.liveAcrossCalls.getD v.index [])

/-- Scanning one block more keeps the invariant. -/
lemma BlocksLiveInv.step (h : f.Owned) {b : Nat} {block : BasicBlock} {s : BlockScan}
    (hblock : f.blocks[b]? = some block)
    (hs : BlocksInv f requirements reuseFinalFloatLhs vectorMode wordRegisterCount simdRegisterCount
      b s) (hlive : BlocksLiveInv f requirements vectorMode b s) :
    BlocksLiveInv f requirements vectorMode (b + 1)
      (scanBlock f wordRegisterCount simdRegisterCount requirements reuseFinalFloatLhs vectorMode
        (assignOwners f) s (block, b)) := by
  set t := scanBlock f wordRegisterCount simdRegisterCount requirements reuseFinalFloatLhs
    vectorMode (assignOwners f) s (block, b)
  have hinv : BlockInv f reuseFinalFloatLhs vectorMode wordRegisterCount simdRegisterCount block
      (fun p => (blockLastUses f requirements (assignOwners f) b block).getD p 0) s
      block.instructions.length t :=
    scanBlock_inv h hblock hs.length hs.flags (hs.pending b block le_rfl hblock)
  have hrecords : LiveInv f vectorMode block
      (fun p => (blockLastUses f requirements (assignOwners f) b block).getD p 0) s.liveAcrossCalls
      block.instructions.length t :=
    scanBlock_live h hblock hs.length hs.flags (hs.pending b block le_rfl hblock) hlive.length
      (hlive.pending b block le_rfl hblock)
  -- the records and the registers of the other blocks stay
  have hframe : ∀ b' block', b' ≠ b → f.blocks[b']? = some block' → ∀ v ∈ block'.instructions,
      t.liveAcrossCalls.getD v.index [] = s.liveAcrossCalls.getD v.index [] := by
    intro b' block' hne hblock' v hv
    refine hrecords.frame v.index fun p hp => ?_
    obtain ⟨u, hu, hindex⟩ := Option.map_eq_some_iff.mp hp
    exact index_ne h hne hblock hblock' hv p hu hindex
  refine ⟨hrecords.length, fun b' block' hb' hblock' v hv => ?_, fun b' block' hb' hblock' => ?_⟩
  · rw [hframe b' block' (by omega) hblock' v hv]
    exact hlive.pending b' block' (by omega) hblock' v hv
  · by_cases heq : b' = b
    · subst heq
      obtain rfl := Option.some.inj (hblock.symm.trans hblock')
      refine ⟨hrecords.banked, fun i v hv hcall => ?_⟩
      exact hrecords.listed i v (List.getElem?_eq_some_iff.mp hv).1 hv hcall
    · obtain ⟨hbanked, hlisted⟩ := hlive.listed b' block' (by omega) hblock'
      have hsame : ∀ p, registerAt t.registers block' p = registerAt s.registers block' p := by
        intro p
        unfold registerAt
        cases hv : block'.instructions[p]? with
        | none => rfl
        | some v => exact scanBlock_frame h heq hblock hblock' hinv v (List.mem_of_getElem? hv)
      refine ⟨fun p hreg => hbanked p (by rwa [← hsame p]), fun i v hv hcall => ?_⟩
      rw [hframe b' block' heq hblock' v (List.mem_of_getElem? hv)]
      exact (hlisted i v hv hcall).congr fun p _ => hsame p

/-- **Run lemma** of the records. -/
lemma scanBlocks_live (h : f.Owned) :
    BlocksLiveInv f requirements vectorMode f.blocks.length
      (scanBlocks f wordRegisterCount simdRegisterCount requirements reuseFinalFloatLhs vectorMode
        (assignOwners f)) := by
  have hnone : ∀ k, (List.replicate f.nodes.length (none : Option Nat)).getD k none = none := by
    intro k
    simp only [List.getD, List.getElem?_replicate]
    split_ifs <;> rfl
  have hempty : ∀ k, (List.replicate f.nodes.length ([] : List Value)).getD k [] = [] := by
    intro k
    simp only [List.getD, List.getElem?_replicate]
    split_ifs <;> rfl
  let start : BlockScan :=
    { registers := List.replicate f.nodes.length none
      liveAcrossCalls := List.replicate f.nodes.length []
      needsStackSlot := List.replicate f.nodes.length false
      banks := fun bank => Bank.full (registerCount wordRegisterCount simdRegisterCount bank) }
  have hstart : BlocksInv f requirements reuseFinalFloatLhs vectorMode wordRegisterCount
      simdRegisterCount 0 start ∧ BlocksLiveInv f requirements vectorMode 0 start :=
    ⟨⟨by simp [start], fun b' block _ _ v _ => hnone v.index, by simp, by simp [start],
      by simp [start]⟩,
      ⟨by simp [start], fun b' block _ _ v _ => hempty v.index, by simp⟩⟩
  have hrun := foldl_zipIdx_invariant
    (fun b s => BlocksInv f requirements reuseFinalFloatLhs vectorMode wordRegisterCount
      simdRegisterCount b s ∧ BlocksLiveInv f requirements vectorMode b s) hstart
    fun b block s hblock hs => ⟨hs.1.step h hblock, hs.2.step h hblock hs.1⟩
  exact hrun.2

end controlFlow

end UniJit.Jit
