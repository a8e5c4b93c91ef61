import Mathlib.Data.List.GetD
import UniJit.Jit.ExclusiveAtomics
import UniJit.Jit.LiveAcrossCalls

/-!
# Registers that are saved across a call

Which registers the code generators save around a call, and where: for a straight-line function the
registers of the values that are used behind the call, for a control-flow graph those of the values
that the allocator recorded. `Savable` says what the allocators promise of such a set, and
`AllocationRegisters.homes` that it can be saved and restored by any machine with enough registers.
-/

namespace UniJit.Jit

open UniJit.Ir UniJit.Lib UniJit.Lib.CallMachine

/-- A value in a register, with its slot. -/
structure LiveRegister where
  type : ValueType
  register : Nat
  slot : Nat
  deriving DecidableEq, Repr

/-- What can be saved below `base`: every register is one of its bank, no two values share a
register, and their slots do not overlap. -/
structure Savable (vectorMode : VectorRegisterMode) (wordRegisterCount simdRegisterCount base : Nat)
    (live : List LiveRegister) : Prop where
  register : ∀ l ∈ live, ∃ bank, registerBank l.type vectorMode = some bank ∧
    l.register < registerCount wordRegisterCount simdRegisterCount bank
  below : ∀ l ∈ live, l.slot + stackSlotWidth l.type ≤ base
  even : ∀ l ∈ live, isVectorValueType l.type → l.slot % 2 = 0
  apart : live.Pairwise fun l l' =>
    (registerBank l.type vectorMode = registerBank l'.type vectorMode →
      l.register ≠ l'.register) ∧
    (l.slot + stackSlotWidth l.type ≤ l'.slot ∨ l'.slot + stackSlotWidth l'.type ≤ l.slot)

/-! ## Homes -/

/-- The registers of a machine that values are allocated to. -/
structure AllocationRegisters (z : Register) (w : Nat) where
  words : List Register
  floats : List Register
  vectorMode : VectorRegisterMode
  words_nodup : words.Nodup
  floats_nodup : floats.Nodup
  notMem_words : z ∉ words
  floats_fit : 64 ≤ w
  vectors_fit : vectorMode = .sharedWithFloat64 → 128 ≤ w

namespace AllocationRegisters

variable {z : Register} {w : Nat} (R : AllocationRegisters z w)

/-- The home of a live register. -/
def home (l : LiveRegister) : Home :=
  if isVectorValueType l.type then .vector (R.floats.getD l.register z) (l.slot / 2)
  else if l.type = .float64 then .float (R.floats.getD l.register z) l.slot
  else .word (R.words.getD l.register z) l.slot

/-- The registers of a bank. -/
def bankRegisters : RegisterBank → List Register
  | .word => R.words
  | .simd => R.floats

variable {R} {l l' : LiveRegister} {bank : RegisterBank}

/-- A type is a word, a Float64 or a vector. -/
lemma valueType_cases (type : ValueType) :
    type = .word ∨ type = .float64 ∨
      isVectorValueType type = true ∧ type ≠ .word ∧ type ≠ .float64 := by
  cases type <;> decide

/-- Words are at home in word registers, and everything else in the others. -/
lemma home_spec (hbank : registerBank l.type R.vectorMode = some bank) :
    (R.home l).register = (R.bankRegisters bank).getD l.register z ∧
      ((R.home l).isWord = true ↔ bank = .word) := by
  unfold home
  rcases valueType_cases l.type with htype | htype | ⟨hvector, hword, hfloat⟩
  · rw [htype] at hbank ⊢
    obtain rfl : RegisterBank.word = bank := Option.some.inj hbank
    exact ⟨rfl, fun _ => rfl, fun _ => rfl⟩
  · rw [htype] at hbank ⊢
    obtain rfl : RegisterBank.simd = bank := Option.some.inj hbank
    exact ⟨rfl, fun h => (by cases h), fun h => (by cases h)⟩
  · unfold registerBank at hbank
    rw [if_neg hword, if_neg hfloat] at hbank
    rw [if_pos hvector]
    cases hmode : R.vectorMode with
    | sharedWithFloat64 =>
        rw [hmode] at hbank
        obtain rfl : RegisterBank.simd = bank := Option.some.inj hbank
        exact ⟨rfl, fun h => (by cases h), fun h => (by cases h)⟩
    | stackOnly =>
        rw [hmode] at hbank
        cases hbank

/-- The slots of a home are those of its value. -/
lemma slots_home (heven : isVectorValueType l.type → l.slot % 2 = 0) :
    ∀ k ∈ (R.home l).slots, l.slot ≤ k ∧ k < l.slot + stackSlotWidth l.type := by
  intro k hk
  unfold home at hk
  unfold stackSlotWidth
  split_ifs at hk ⊢ with hvector hfloat
  · have hslot := heven hvector
    rw [Home.slots, List.mem_pair] at hk
    omega
  · rw [Home.slots, List.mem_singleton] at hk
    omega
  · rw [Home.slots, List.mem_singleton] at hk
    omega

/-- A register of the right bank is a register of the machine. -/
lemma fits_home (hbank : registerBank l.type R.vectorMode = some bank)
    (hword : bank = .word → l.register < R.words.length) : (R.home l).Fits z w := by
  unfold home
  rcases valueType_cases l.type with htype | htype | ⟨hvector, hnotWord, hnotFloat⟩
  · rw [htype] at hbank ⊢
    obtain rfl : RegisterBank.word = bank := Option.some.inj hbank
    have hlt := hword rfl
    change R.words.getD l.register z ≠ z
    rw [List.getD_eq_getElem _ _ hlt]
    intro heq
    have hmem := List.getElem_mem hlt
    rw [heq] at hmem
    exact R.notMem_words hmem
  · rw [htype]
    exact R.floats_fit
  · rw [if_pos hvector]
    refine R.vectors_fit ?_
    unfold registerBank at hbank
    rw [if_neg hnotWord, if_neg hnotFloat] at hbank
    cases hmode : R.vectorMode with
    | sharedWithFloat64 => rfl
    | stackOnly =>
        rw [hmode] at hbank
        cases hbank

/-- The registers of a bank are different. -/
lemma bankRegisters_nodup (bank : RegisterBank) : (R.bankRegisters bank).Nodup := by
  cases bank with
  | word => exact R.words_nodup
  | simd => exact R.floats_nodup

lemma length_bankRegisters (bank : RegisterBank) :
    (R.bankRegisters bank).length = registerCount R.words.length R.floats.length bank := by
  cases bank <;> rfl

/-- **What the allocators promise can be saved and restored.** -/
theorem homes {base : Nat} {live : List LiveRegister} {scratch : List Register}
    (h : Savable R.vectorMode R.words.length R.floats.length base live)
    (hfree : ∀ r ∈ R.words, r ∉ scratch) : Homes z w scratch base (live.map R.home) := by
  constructor
  · rw [List.pairwise_map]
    refine h.apart.imp_of_mem fun {l l'} hl hl' hapart => ?_
    obtain ⟨bank, hbank, hlt⟩ := h.register l hl
    obtain ⟨bank', hbank', hlt'⟩ := h.register l' hl'
    obtain ⟨hregister, hword⟩ := home_spec hbank
    obtain ⟨hregister', hword'⟩ := home_spec hbank'
    rw [← length_bankRegisters] at hlt hlt'
    constructor
    · intro hkind
      have hsame : bank = bank' := by
        have hiff : bank = .word ↔ bank' = .word := by rw [← hword, ← hword', hkind]
        cases bank <;> cases bank' <;> first | rfl | (exact absurd hiff (by decide))
      subst hsame
      have hne := hapart.1 (hbank.trans hbank'.symm)
      rw [hregister, hregister', List.getD_eq_getElem _ _ hlt, List.getD_eq_getElem _ _ hlt']
      intro heq
      exact hne ((List.Nodup.getElem_inj_iff (bankRegisters_nodup bank)).mp heq)
    · intro k hk hk'
      have hbounds := slots_home (h.even l hl) k hk
      have hbounds' := slots_home (h.even l' hl') k hk'
      have hdisjoint := hapart.2
      omega
  · intro home hhome
    obtain ⟨l, hl, rfl⟩ := List.mem_map.mp hhome
    obtain ⟨bank, hbank, hlt⟩ := h.register l hl
    exact fits_home hbank fun hword => by rw [hword] at hlt; exact hlt
  · intro home hhome k hk
    obtain ⟨l, hl, rfl⟩ := List.mem_map.mp hhome
    have hbounds := slots_home (h.even l hl) k hk
    have hbelow := h.below l hl
    omega
  · intro home hhome hword
    obtain ⟨l, hl, rfl⟩ := List.mem_map.mp hhome
    obtain ⟨bank, hbank, hlt⟩ := h.register l hl
    obtain ⟨hregister, hkind⟩ := home_spec hbank
    obtain rfl := hkind.mp hword
    have hlength : l.register < R.words.length := hlt
    rw [hregister]
    change R.words.getD l.register z ∉ scratch
    rw [List.getD_eq_getElem _ _ hlength]
    exact hfree _ (List.getElem_mem hlength)

end AllocationRegisters

/-! ## Straight lines -/

section straight

variable (f : Function) (a : RegisterAllocation)

/-- The registers of the values that are used behind a call. -/
def liveRegisters (callIndex : Nat) : List LiveRegister :=
  (List.range callIndex).filterMap fun v =>
    (a.location v).registerIndex.bind fun register =>
      if a.lastUses.getD v 0 ≤ callIndex then none
      else some ⟨nodeType f v, register, (a.location v).spillSlot.getD 0⟩

variable {f a} {wordRegisterCount simdRegisterCount maximumSpillSlots : Nat}
  {requirements : StackMapRequirements} {vectorMode : VectorRegisterMode}
  (h : allocateLinearScan f wordRegisterCount simdRegisterCount requirements vectorMode
    maximumSpillSlots = .ok a)

include h

/-- Registers are those of a bank, and the last uses are the collected ones. -/
lemma registers_of_allocateLinearScan :
    a.lastUses = collectLastUses f requirements ∧ ∀ v r, (a.location v).registerIndex = some r →
      ∃ bank, registerBank (nodeType f v) vectorMode = some bank ∧
        r < registerCount wordRegisterCount simdRegisterCount bank := by
  simp only [allocateLinearScan, require_bind_eq_ok, pure_eq_ok] at h
  obtain ⟨-, -, rfl⟩ := h
  refine ⟨rfl, fun v r hr => ?_⟩
  set lastUse := fun v => (collectLastUses f requirements).getD v 0
  have hscan : ScanInv f vectorMode lastUse wordRegisterCount simdRegisterCount f.nodes.length
      (scanValues f wordRegisterCount simdRegisterCount vectorMode lastUse) := scanValues_inv
  have hinv := (spillAcrossCallsAt_inv lastUse (CallInv.refl hscan.length hscan.slots) le_rfl).1
  have hregister := (hinv.register v).symm.trans hr
  obtain ⟨bank, hbank⟩ := hscan.banked v r hregister
  refine ⟨bank, hbank, (hscan.bank bank).reg_lt v r ?_⟩
  rw [bankRegister, if_pos hbank]
  exact hregister

variable {callIndex base : Nat}

/-- A value that is listed. -/
lemma mem_liveRegisters {l : LiveRegister} (hl : l ∈ liveRegisters f a callIndex) :
    ∃ v < callIndex, l.type = nodeType f v ∧ (a.location v).registerIndex = some l.register ∧
      callIndex < (collectLastUses f requirements).getD v 0 ∧
      l.slot = (a.location v).spillSlot.getD 0 := by
  rw [← (registers_of_allocateLinearScan h).1]
  simp only [liveRegisters, List.mem_filterMap, List.mem_range, Option.bind_eq_some_iff] at hl
  obtain ⟨v, hv, r, hr, hcase⟩ := hl
  split_ifs at hcase with hlast
  obtain rfl := Option.some.inj hcase
  exact ⟨v, hv, rfl, hr, not_le.mp hlast, rfl⟩

/-- **Every register-resident value that is used behind the call is saved.** -/
theorem saved_of_usedAt (hlength : callIndex ≤ f.nodes.length) {v p r : Nat} (hv : v < callIndex)
    (hp : callIndex < p) (hused : UsedAt f requirements v p)
    (hr : (a.location v).registerIndex = some r) :
    ⟨nodeType f v, r, (a.location v).spillSlot.getD 0⟩ ∈ liveRegisters f a callIndex := by
  have hlast : p ≤ (collectLastUses f requirements).getD v 0 :=
    (collectLastUses_spec (hv.trans_le hlength)).2.1 p hused
  simp only [liveRegisters, List.mem_filterMap, List.mem_range, Option.bind_eq_some_iff]
  refine ⟨v, hv, r, hr, if_neg ?_⟩
  rw [(registers_of_allocateLinearScan h).1]
  omega

/-- **What a straight line saves can be saved.** -/
theorem savable_straight (hsound : a.Sound f requirements vectorMode)
    (hcall : isCallAt f callIndex = true) (hlength : callIndex < f.nodes.length)
    (hbase : a.spillSlots ≤ base) :
    Savable vectorMode wordRegisterCount simdRegisterCount base (liveRegisters f a callIndex) := by
  obtain ⟨hlastUses, hregisters⟩ := registers_of_allocateLinearScan h
  -- a value used behind the call has a slot
  have hslot : ∀ v < callIndex, (a.location v).registerIndex.isSome →
      callIndex < (collectLastUses f requirements).getD v 0 →
      UsedAt f requirements v ((collectLastUses f requirements).getD v 0) ∧
        ∃ s, (a.location v).spillSlot = some s := by
    intro v hv hreg hlast
    have hused : UsedAt f requirements v ((collectLastUses f requirements).getD v 0) := by
      refine ((collectLastUses_spec (hv.trans hlength)).2.2).resolve_left ?_
      omega
    exact ⟨hused, Option.isSome_iff_exists.mp
      (hsound.acrossCalls callIndex hlength hcall v hv hreg ⟨_, hlast, hused⟩)⟩
  have hslots : ∀ l ∈ liveRegisters f a callIndex, ∃ v, l.type = nodeType f v ∧
      (a.location v).spillSlot = some l.slot := by
    intro l hl
    obtain ⟨v, hv, htype, hr, hlast, hs⟩ := mem_liveRegisters h hl
    obtain ⟨-, s, hs'⟩ := hslot v hv (by rw [hr]; rfl) hlast
    rw [hs', Option.getD_some] at hs
    exact ⟨v, htype, hs ▸ hs'⟩
  constructor
  · intro l hl
    obtain ⟨v, -, htype, hr, -, -⟩ := mem_liveRegisters h hl
    rw [htype]
    exact hregisters v l.register hr
  · intro l hl
    obtain ⟨v, htype, hs⟩ := hslots l hl
    rw [htype]
    exact (hsound.bounded v l.slot hs).trans hbase
  · intro l hl hvector
    obtain ⟨v, htype, hs⟩ := hslots l hl
    rw [htype] at hvector
    exact (hsound.aligned v l.slot hs hvector).1
  · have hbanks : ∀ l ∈ liveRegisters f a callIndex, ∃ bank,
        registerBank l.type vectorMode = some bank := fun l hl => by
      obtain ⟨v, -, htype, hr, -, -⟩ := mem_liveRegisters h hl
      obtain ⟨bank, hbank, -⟩ := hregisters v l.register hr
      exact ⟨bank, htype ▸ hbank⟩
    rw [liveRegisters, List.pairwise_filterMap]
    refine List.pairwise_lt_range.imp_of_mem fun {u v} hu hv huv l hl l' hl' => ?_
    have hlisted : ∀ w < callIndex, ∀ k, ((a.location w).registerIndex.bind fun register =>
        if a.lastUses.getD w 0 ≤ callIndex then none
        else some ⟨nodeType f w, register, (a.location w).spillSlot.getD 0⟩) = some k →
        k ∈ liveRegisters f a callIndex ∧ k.type = nodeType f w ∧
          (a.location w).registerIndex = some k.register ∧
          UsedAt f requirements w ((collectLastUses f requirements).getD w 0) ∧
          callIndex < (collectLastUses f requirements).getD w 0 ∧
          (a.location w).spillSlot = some k.slot := by
      intro w hw k hk
      have hmem : k ∈ liveRegisters f a callIndex :=
        List.mem_filterMap.mpr ⟨w, List.mem_range.mpr hw, hk⟩
      obtain ⟨r, hr, hcase⟩ := Option.bind_eq_some_iff.mp hk
      rw [hlastUses] at hcase
      split_ifs at hcase with hlast
      obtain rfl := Option.some.inj hcase
      obtain ⟨hused, s, hs⟩ := hslot w hw (by rw [hr]; rfl) (not_le.mp hlast)
      exact ⟨hmem, rfl, hr, hused, not_le.mp hlast, by rw [hs]; rfl⟩
    obtain ⟨hmem, htype, hr, hused, hlast, hs⟩ := hlisted u (List.mem_range.mp hu) l hl
    obtain ⟨-, htype', hr', -, -, hs'⟩ := hlisted v (List.mem_range.mp hv) l' hl'
    constructor
    · intro hbank heq
      obtain ⟨bank, hbank'⟩ := hbanks l hmem
      have hbehind := hsound.separated u v l.register bank huv ((List.mem_range.mp hv).trans hlength)
        (by rw [← htype, hbank']) (by rw [← htype', ← hbank, hbank']) hr (by rw [hr', heq]) _ hused
      have hbefore := List.mem_range.mp hv
      omega
    · rw [htype, htype']
      exact hsound.disjoint u v l.slot l'.slot huv.ne hs hs'

end straight

/-! ## Control-flow graphs -/

section controlFlow

variable (f : ControlFlowFunction) (a : ControlFlowRegisterAllocation)

/-- A value with its register and its slot. -/
def controlLiveRegister (v : Value) : LiveRegister :=
  ⟨f.valueType v, (a.register v.index).getD 0, (a.slot v.index).getD 0⟩

/-- The registers of the values that are recorded at a call. -/
def controlLiveRegisters (call : Value) : List LiveRegister :=
  (a.liveAcrossCalls.getD call.index []).map (controlLiveRegister f a)

variable {f a} {wordRegisterCount simdRegisterCount : Nat} {requirements : StackMapRequirements}
  {reuseFinalFloatLhs : Bool} {vectorMode : VectorRegisterMode}
  (h : allocateControlFlowRegisters f wordRegisterCount simdRegisterCount requirements
    reuseFinalFloatLhs vectorMode = .ok a) {b i : Nat} {block : BasicBlock} {call : Value}
  (hblock : f.blocks[b]? = some block) (hi : block.instructions[i]? = some call)
  (hcall : isCallNode f call = true)

include h hblock hi hcall

/-- **What is recorded at a call**: the values of earlier positions that hold a register and are
used behind it; two of one bank have different registers. -/
lemma recorded_of_allocate (howned : f.Owned) :
    ListsLive block
        (fun p => (blockLastUses f requirements (assignOwners f) b block).getD p 0) a.registerIndices
        i (a.liveAcrossCalls.getD call.index []) ∧
      Banked f vectorMode block a.registerIndices ∧
      ∀ bank, ∃ state : Bank,
        state.Inv (fun p => (blockLastUses f requirements (assignOwners f) b block).getD p 0)
          (ReusesLhs f reuseFinalFloatLhs block)
          (registerCount wordRegisterCount simdRegisterCount bank) block.instructions.length
          (positionRegister f vectorMode block a.registerIndices bank) := by
  simp only [allocateControlFlowRegisters, require_bind_eq_ok, pure_eq_ok] at h
  obtain ⟨-, rfl⟩ := h
  have hscan : BlocksInv f requirements reuseFinalFloatLhs vectorMode wordRegisterCount
      simdRegisterCount f.blocks.length _ := scanBlocks_inv howned
  have hlive : BlocksLiveInv f requirements vectorMode f.blocks.length
      (scanBlocks f wordRegisterCount simdRegisterCount requirements reuseFinalFloatLhs vectorMode
        (assignOwners f)) := scanBlocks_live howned
  have hlt := (List.getElem?_eq_some_iff.mp hblock).1
  obtain ⟨hbanked, hlisted⟩ := hlive.listed b block hlt hblock
  exact ⟨hlisted i call hi hcall, hbanked, hscan.done b block hlt hblock⟩

/-- **Every register-resident value of the block that is used behind the call is saved.** -/
theorem saved_of_usedInBlock (howned : f.Owned) {p q : Nat} {v : Value} (hp : p < i)
    (hv : block.instructions[p]? = some v) (hreg : (a.register v.index).isSome) (hq : i < q)
    (hused : UsedInBlock f requirements b v.index q) :
    controlLiveRegister f a v ∈ controlLiveRegisters f a call := by
  obtain ⟨hlists, -, -⟩ := recorded_of_allocate h hblock hi hcall howned
  have hlast : q ≤ (blockLastUses f requirements (assignOwners f) b block).getD p 0 :=
    (blockLastUses_spec howned hblock (⟨block, v, hblock, hv, rfl⟩ : f.DefinedAt v.index b p)).2 q
      hused
  refine List.mem_map_of_mem ((hlists.2 v).mpr ⟨p, hp, hv, ?_, hq.trans_le hlast⟩)
  rw [registerAt, hv]
  exact hreg

/-- **What a control-flow graph saves can be saved.** -/
theorem savable_controlFlow (howned : f.Owned) {base : Nat} (hbase : a.stackSlots ≤ base) :
    Savable vectorMode wordRegisterCount simdRegisterCount base (controlLiveRegisters f a call) := by
  obtain ⟨hlists, hbanked, hbanks⟩ := recorded_of_allocate h hblock hi hcall howned
  have hsound := sound_of_allocateControlFlowRegisters howned h
  -- the position, the register and the slot of a recorded value
  have hplace : ∀ v ∈ a.liveAcrossCalls.getD call.index [], ∃ p < i,
      block.instructions[p]? = some v ∧
      i < (blockLastUses f requirements (assignOwners f) b block).getD p 0 ∧
      (∃ bank, registerBank (f.valueType v) vectorMode = some bank ∧
        positionRegister f vectorMode block a.registerIndices bank p =
          some (controlLiveRegister f a v).register) ∧
      a.slot v.index = some (controlLiveRegister f a v).slot ∧
      f.valueType v = valueTypeAt f v.index := by
    intro v hv
    obtain ⟨p, hp, hinstruction, hreg, hlast⟩ := (hlists.2 v).mp hv
    obtain ⟨bank, r, hbank, hr, hposition⟩ := positionRegister_of_banked hbanked hreg
    obtain ⟨hvalid, hlt⟩ := howned.valid hblock hinstruction
    refine ⟨p, hp, hinstruction, hlast, ⟨bank, ?_, ?_⟩, ?_, valueType_eq_valueTypeAt hvalid⟩
    · rwa [positionBank, hinstruction] at hbank
    · have hregister : a.register v.index = some r := by rwa [registerAt, hinstruction] at hr
      rw [hposition, controlLiveRegister, hregister, Option.getD_some]
    · have hsome : (a.slot v.index).isSome := by
        by_cases hlength : call.index < a.liveAcrossCalls.length
        · rw [List.getD_eq_getElem _ _ hlength] at hv
          exact hsound.acrossCalls _ (List.getElem_mem hlength) v hv
        · rw [List.getD_eq_default _ _ (not_lt.mp hlength)] at hv
          cases hv
      obtain ⟨s, hs⟩ := Option.isSome_iff_exists.mp hsome
      rw [controlLiveRegister, hs, Option.getD_some]
  constructor
  · intro l hl
    obtain ⟨v, hv, rfl⟩ := List.mem_map.mp hl
    obtain ⟨p, hp, -, -, ⟨bank, hbank, hr⟩, -, -⟩ := hplace v hv
    obtain ⟨state, hstate⟩ := hbanks bank
    exact ⟨bank, hbank, hstate.reg_lt p _ hr⟩
  · intro l hl
    obtain ⟨v, hv, rfl⟩ := List.mem_map.mp hl
    obtain ⟨p, -, -, -, -, hs, htype⟩ := hplace v hv
    have hbounded := hsound.bounded v.index _ hs
    rw [slotWidth, ← htype] at hbounded
    exact hbounded.trans hbase
  · intro l hl hvector
    obtain ⟨v, hv, rfl⟩ := List.mem_map.mp hl
    obtain ⟨p, -, -, -, -, hs, htype⟩ := hplace v hv
    exact (hsound.aligned v.index _ hs (htype ▸ hvector)).1
  · rw [controlLiveRegisters, List.pairwise_map]
    refine hlists.1.imp_of_mem fun {u v} hu hv hne => ?_
    obtain ⟨p, hp, hinstruction, hlast, ⟨bank, hbank, hr⟩, hs, htype⟩ := hplace u hu
    obtain ⟨q, hq, hinstruction', hlast', ⟨bank', hbank', hr'⟩, hs', htype'⟩ := hplace v hv
    have hpositions : p ≠ q := by
      rintro rfl
      exact hne (Option.some.inj (hinstruction.symm.trans hinstruction'))
    constructor
    · intro hsame heq
      obtain rfl : bank = bank' :=
        Option.some.inj (hbank.symm.trans ((show registerBank (f.valueType u) vectorMode =
          registerBank (f.valueType v) vectorMode from hsame).trans hbank'))
      obtain ⟨state, hstate⟩ := hbanks bank
      rw [heq] at hr
      rcases lt_or_gt_of_ne hpositions with hlt | hgt
      · rcases hstate.separated p q _ hlt hr hr' with hbefore | hreuse
        · omega
        · have := hreuse.1
          omega
      · rcases hstate.separated q p _ hgt hr' hr with hbefore | hreuse
        · omega
        · have := hreuse.1
          omega
    · have hindex : u.index ≠ v.index := fun heq =>
        hpositions (index_inj howned hblock hinstruction hinstruction' heq)
      have hdisjoint := hsound.localDisjoint u.index v.index b p q _ _ hindex
        ⟨block, u, hblock, hinstruction, rfl⟩ ⟨block, v, hblock, hinstruction', rfl⟩ hs hs'
      rw [slotWidth, slotWidth, ← htype, ← htype'] at hdisjoint
      exact hdisjoint

end controlFlow

end UniJit.Jit
