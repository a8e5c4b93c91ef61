import UniJit.Lib.LinearScan
import UniJit.Lib.Packing
import UniJit.Ir.Operands
import UniJit.Ir.Verifier

/-!
# Straight-line register allocation

`allocateLinearScan` assigns registers of two banks and spill slots to the values of a
straight-line function: last uses are collected, the values are scanned in order, and values that
live across a call receive a spill slot in addition to their register.

The scan of one bank is the linear scan of `UniJit.Lib.Bank`; a value of the other bank is a
position it skips. Spill slots are handed out by a bump pointer (`UniJit.Lib.Packed`).

In the source "no register" and "no slot" are the value `kNone`; they are `none` here. A stack-map
requirement that names a value outside the function has no effect on the collected last uses.
-/

namespace UniJit.Jit

open UniJit.Ir UniJit.Lib

/-! ## Shared definitions of the two allocators -/

/-- A physical register bank. A type without one lives on the stack only. -/
inductive RegisterBank
  | word | simd
  deriving DecidableEq, Repr

/-- Whether vectors live in registers. -/
inductive VectorRegisterMode
  | sharedWithFloat64 | stackOnly
  deriving DecidableEq, Repr

/-- The bank of a type; `none` is the source's `kStack`. -/
def registerBank (type : ValueType) (vectorMode : VectorRegisterMode) : Option RegisterBank :=
  if type = .word then some .word
  else if type = .float64 then some .simd
  else match vectorMode with
    | .sharedWithFloat64 => some .simd
    | .stackOnly => none

/-- The slots a type takes. -/
def stackSlotWidth (type : ValueType) : Nat := if isVectorValueType type then 2 else 1

/-- The slot a value of `type` receives, and the next free slot after it. -/
def reserveStackSlot (type : ValueType) (nextSlot : Nat) : Nat × Nat :=
  let slot := if isVectorValueType type ∧ nextSlot % 2 ≠ 0 then nextSlot + 1 else nextSlot
  (slot, slot + stackSlotWidth type)

/-- A reserved slot starts at or after the next free one, a vector's at an even number. -/
lemma reserveStackSlot_spec (type : ValueType) (nextSlot : Nat) :
    nextSlot ≤ (reserveStackSlot type nextSlot).1 ∧
      (reserveStackSlot type nextSlot).2 =
        (reserveStackSlot type nextSlot).1 + stackSlotWidth type ∧
      (isVectorValueType type → (reserveStackSlot type nextSlot).1 % 2 = 0) := by
  unfold reserveStackSlot
  split_ifs with h
  · refine ⟨by simp, rfl, fun _ => ?_⟩
    change (nextSlot + 1) % 2 = 0
    omega
  · refine ⟨le_rfl, rfl, fun hv => ?_⟩
    change nextSlot % 2 = 0
    by_contra hodd
    exact h ⟨hv, hodd⟩

/-- A value that deoptimization needs at an exit site. -/
structure StackMapRequirement where
  site : Nat
  values : List Value
  deriving DecidableEq, Repr

/-- The values that must be in slots at exits. -/
abbrev StackMapRequirements := List StackMapRequirement

/-- The requirement of a site. -/
def findStackMapRequirement (requirements : StackMapRequirements) (site : Nat) :
    Option StackMapRequirement :=
  requirements.find? (·.site == site)

section

variable {Op : Type}

/-- The values an instruction uses: its operands, as `visit_control_operands` visits them. -/
def visitOperands (t : SideTables) (n : NodeOf Op) : Operation → List Value
  | .binary _ | .vectorInsertLane | .vectorBinary | .vectorCompare => [n.lhs, n.rhs]
  | .unary _ | .guardWordNonzero | .guardFloatNonzero
  | .memory .loadWord | .memory .loadFloat | .memory .loadVector
  | .vectorSplat | .vectorExtractLane | .vectorUnary | .vectorLaneSignMask | .vectorShuffle
  | .vectorWiden => [n.lhs]
  | .vectorSelect =>
      [n.lhs, n.rhs, t.vectorSelectArguments.getD n.immediate.toNat .invalid]
  | .memory .storeWord | .memory .storeFloat | .memory .storeVector
  | .atomic .store | .atomic .exchange
  | .atomic .fetchAdd | .atomic .fetchAnd | .atomic .fetchOr | .atomic .fetchXor =>
      [n.lhs, n.rhs]
  | .atomic .compareExchange => [n.lhs, n.rhs, n.auxiliary]
  | .atomic .load => [n.lhs]
  | .storeFrame | .storeObject => [n.lhs]
  | .call | .fastCall =>
      (t.callArguments.drop n.argumentBegin.toNat).take n.argumentCount.toNat
  | .constant | .safepoint | .atomicFence | .loadFrame | .loadObject | .loadPatchCell
  | .vectorConstant => []

/-- The allocator visits exactly the operands that execution reads. -/
lemma visitOperands_eq_operands (t : SideTables) (n : NodeOf Op) (o : Operation) :
    visitOperands t n o = operands t n o := by
  cases o with
  | memory o => cases o <;> rfl
  | atomic o => cases o <;> rfl
  | _ => rfl

/-- The values a stack map has to recover at the node. -/
def requiredValues (requirements : StackMapRequirements) (n : NodeOf Op) :
    Operation → List Value
  | .safepoint | .guardWordNonzero | .guardFloatNonzero =>
      match findStackMapRequirement requirements n.immediate.toNat with
      | some requirement => requirement.values
      | none => []
  | _ => []

/-- An atomic operation that may be lowered to a call of its fallback. -/
def mayCallAtomicFallback (t : SideTables) (n : NodeOf Op) : Operation → Bool
  | .atomic .exchange | .atomic .compareExchange
  | .atomic .fetchAdd | .atomic .fetchAnd | .atomic .fetchOr | .atomic .fetchXor => true
  | .atomic .load | .atomic .store =>
      memoryWidthBytes (t.atomicAccesses.getD n.atomicAccess.toNat {}).memory.width < 4
  | _ => false

/-- A node at which registers do not survive: a call, a fast call or a possible fallback. -/
def isCallLike (t : SideTables) (n : NodeOf Op) : Operation → Bool
  | .call | .fastCall => true
  | o => mayCallAtomicFallback t n o

end

/-! ## The linear scan -/

/-- Where a value lives. -/
structure ValueLocation where
  registerIndex : Option Nat := none
  spillSlot : Option Nat := none
  deriving DecidableEq, Repr

/-- Where the values of a function live. -/
structure RegisterAllocation where
  locations : List ValueLocation
  spillSlots : Nat
  lastUses : List Nat
  deriving DecidableEq, Repr

/-- Notes a use of a value. -/
def noteUse (useIndex : Nat) (lastUse : List Nat) (value : Value) : List Nat :=
  raiseUse useIndex lastUse value.index

section allocator

variable (f : Function) (wordRegisterCount simdRegisterCount : Nat)
  (requirements : StackMapRequirements) (vectorMode : VectorRegisterMode)

/-- The values used at a node: its operands and the values its stack map recovers. -/
def usedValues (n : Node) : List Value :=
  match n.opcode with
  | .parameter => []
  | .op o => visitOperands f.toSideTables n o ++ requiredValues requirements n o

/-- One iteration of the last-use collection. -/
def noteNode (lastUse : List Nat) (node : Node × Nat) : List Nat :=
  (usedValues f requirements node.1).foldl (noteUse node.2) (lastUse.set node.2 node.2)

/-- The last use of each value; a value used by the return is used after the last node. -/
def collectLastUses : List Nat :=
  noteUse f.nodes.length
    (f.nodes.zipIdx.foldl (noteNode f requirements) (List.replicate f.nodes.length 0))
    f.returnValue

/-- The state of the scan. -/
structure Scan where
  locations : List ValueLocation
  banks : RegisterBank → Bank
  spillSlots : Nat

namespace Scan

/-- Where a value lives so far. -/
def location (s : Scan) (v : Nat) : ValueLocation := s.locations.getD v {}

/-- Give value `v` the next spill slot. -/
def spill (s : Scan) (v : Nat) (type : ValueType) : Scan :=
  let reserved := reserveStackSlot type s.spillSlots
  { s with
    locations := s.locations.set v { s.location v with spillSlot := some reserved.1 }
    spillSlots := reserved.2 }

/-- Set or clear the register of value `v`. -/
def setRegister (s : Scan) (v : Nat) (register : Option Nat) : Scan :=
  { s with locations := s.locations.set v { s.location v with registerIndex := register } }

/-- Exchanges a bank. -/
def setBank (s : Scan) (bank : RegisterBank) (b : Bank) : Scan :=
  { s with banks := Function.update s.banks bank b }

end Scan

/-- The first element with the largest key, as `std::max_element` finds it. -/
def maxElement (key : Nat → Nat) : List Nat → Option Nat
  | [] => none
  | v :: vs => some (vs.foldl (fun best w => if key best < key w then w else best) v)

/-- The type of the node at an index. -/
def nodeType (v : Nat) : ValueType := (f.nodes[v]?.map (·.type)).getD .word

/-- One iteration of the scan. -/
def scanStep (lastUse : Nat → Nat) (s : Scan) (index : Nat) : Scan :=
  let type := nodeType f index
  match registerBank type vectorMode with
  | none => s.spill index type
  | some bank =>
      let b := (s.banks bank).expire lastUse (fun v => (s.location v).registerIndex) index
      match b.free with
      | register :: rest =>
          (s.setRegister index (some register)).setBank bank ⟨b.active ++ [index], rest⟩
      | [] =>
          match maxElement lastUse b.active with
          | none => (s.spill index type).setBank bank b
          | some victim =>
              if lastUse index < lastUse victim then
                -- the victim hands over its register and moves to the stack
                let register := (s.location victim).registerIndex
                (((s.setRegister index register).setRegister victim none).spill victim
                  (nodeType f victim)).setBank bank
                  ⟨b.active.map fun v => if v = victim then index else v, b.free⟩
              else (s.spill index type).setBank bank b

/-- The node at `index` is a call, a fast call or a possible atomic fallback. -/
def isCallAt (index : Nat) : Bool :=
  f.nodes[index]?.any fun n => n.opcode.operation?.any (isCallLike f.toSideTables n)

/-- Give a slot to a register-resident value that is used after the call at `callIndex`. -/
def spillAcrossCall (lastUse : Nat → Nat) (callIndex : Nat) (s : Scan) (v : Nat) : Scan :=
  let location := s.location v
  if location.registerIndex.isSome ∧ callIndex < lastUse v ∧ location.spillSlot = none then
    s.spill v (nodeType f v)
  else s

/-- Gives slots to the registers used after a call. -/
def spillAcrossCallsAt (lastUse : Nat → Nat) (s : Scan) (callIndex : Nat) : Scan :=
  if isCallAt f callIndex then
    (List.range callIndex).foldl (spillAcrossCall f lastUse callIndex) s
  else s

/-- The registers of a bank. -/
def registerCount : RegisterBank → Nat
  | .word => wordRegisterCount
  | .simd => simdRegisterCount

/-- The scan before the first value: every register is free and no slot is used. -/
def Scan.initial : Scan :=
  { locations := List.replicate f.nodes.length {}
    banks := fun bank => Bank.full (registerCount wordRegisterCount simdRegisterCount bank)
    spillSlots := 0 }

/-- The scan over all values. -/
def scanValues (lastUse : Nat → Nat) : Scan :=
  (List.range f.nodes.length).foldl (scanStep f vectorMode lastUse)
    (Scan.initial f wordRegisterCount simdRegisterCount)

/-- The straight-line register allocator. -/
def allocateLinearScan (maximumSpillSlots : Nat) : Except Status RegisterAllocation := do
  require (wordRegisterCount ≠ 0 ∧ simdRegisterCount ≠ 0)
    ⟨.invalidArgument, "linear scan requires Word and SIMD registers", 0⟩
  let lastUses := collectLastUses f requirements
  let lastUse := fun v => lastUses.getD v 0
  let scanned := scanValues f wordRegisterCount simdRegisterCount vectorMode lastUse
  let s := (List.range f.nodes.length).foldl (spillAcrossCallsAt f lastUse) scanned
  require (s.spillSlots ≤ maximumSpillSlots)
    ⟨.resourceExhausted, "linear scan exceeded the backend spill-frame limit", 0⟩
  pure { locations := s.locations, spillSlots := s.spillSlots, lastUses := lastUses }

end allocator

/-! ## Last uses -/

section lastUses

variable (f : Function) (requirements : StackMapRequirements)

/-- **Uses**: value `v` is used at position `p` when node `p` reads it or its stack map recovers
it, or when it is returned, which happens after the last node. -/
def UsedAt (v p : Nat) : Prop :=
  (∃ n o, f.nodes[p]? = some n ∧ n.opcode = .op o ∧
    ∃ value ∈ operands f.toSideTables n o ++ requiredValues requirements n o, value.index = v) ∨
  (p = f.nodes.length ∧ f.returnValue.index = v)

variable {f requirements}

/-- An operation uses its operands and what its exit requires. -/
lemma usedValues_spec {n : Node} {o : Operation} (ho : n.opcode = .op o) :
    usedValues f requirements n =
      operands f.toSideTables n o ++ requiredValues requirements n o := by
  simp [usedValues, ho, visitOperands_eq_operands]

/-- The collection over the nodes is the general collection of last uses. -/
lemma collectLastUses_eq :
    collectLastUses f requirements =
      raiseUse f.nodes.length
        (collectUses (f.nodes.map fun n => (usedValues f requirements n).map Value.index))
        f.returnValue.index := by
  unfold collectLastUses noteUse collectUses
  rw [List.zipIdx_map, List.foldl_map, List.length_map]
  congr 2
  funext lastUse node
  simp only [noteNode, collectStep, Prod.map, List.foldl_map, id]
  rfl

/-- A use before the return, in terms of the collected lists. -/
lemma usedAt_iff {v p : Nat} (hp : p < f.nodes.length) :
    UsedAt f requirements v p ↔
      v ∈ (f.nodes.map fun n => (usedValues f requirements n).map Value.index).getD p [] := by
  have hget : (f.nodes.map fun n => (usedValues f requirements n).map Value.index).getD p [] =
      (usedValues f requirements f.nodes[p]).map Value.index := by
    simp [List.getD, List.getElem?_eq_getElem hp]
  rw [hget, List.mem_map]
  constructor
  · rintro (⟨n, o, hn, ho, hvalue⟩ | ⟨hlength, -⟩)
    · obtain rfl := Option.some.inj ((List.getElem?_eq_getElem hp).symm.trans hn)
      rwa [usedValues_spec ho]
    · omega
  · intro hvalue
    cases ho : f.nodes[p].opcode with
    | parameter => simp [usedValues, ho] at hvalue
    | op o =>
        rw [usedValues_spec ho] at hvalue
        exact .inl ⟨_, o, List.getElem?_eq_getElem hp, ho, hvalue⟩

/-- **Last uses**: the collected entry of a value is the greatest of its definition and its
uses. -/
lemma collectLastUses_spec {v : Nat} (hv : v < f.nodes.length) :
    v ≤ (collectLastUses f requirements).getD v 0 ∧
      (∀ p, UsedAt f requirements v p → p ≤ (collectLastUses f requirements).getD v 0) ∧
      ((collectLastUses f requirements).getD v 0 = v ∨
        UsedAt f requirements v ((collectLastUses f requirements).getD v 0)) := by
  obtain ⟨hdefinition, huse, hattained, hlt⟩ := collectUses_spec
    (f.nodes.map fun n => (usedValues f requirements n).map Value.index) (by simpa using hv)
  have hget : (collectLastUses f requirements).getD v 0 =
      if v = f.returnValue.index then f.nodes.length
      else (collectUses (f.nodes.map fun n =>
        (usedValues f requirements n).map Value.index)).getD v 0 := by
    rw [collectLastUses_eq, raiseUse_getD, length_collectUses]
    simp only [List.length_map, hv, and_true] at hlt ⊢
    split_ifs
    · exact max_eq_right hlt.le
    · rfl
  rw [hget]
  by_cases hret : v = f.returnValue.index
  · rw [if_pos hret]
    refine ⟨hv.le, ?_, .inr (.inr ⟨rfl, hret.symm⟩)⟩
    rintro p (⟨n, o, hn, -⟩ | ⟨rfl, -⟩)
    · exact (List.getElem?_eq_some_iff.mp hn).1.le
    · exact le_rfl
  · rw [if_neg hret]
    refine ⟨hdefinition, fun p hused => ?_, ?_⟩
    · by_cases hp : p < f.nodes.length
      · exact huse p ((usedAt_iff hp).mp hused)
      · rcases hused with ⟨n, o, hn, -⟩ | ⟨-, hreturn⟩
        · exact absurd (List.getElem?_eq_some_iff.mp hn).1 hp
        · exact absurd hreturn.symm hret
    · refine hattained.imp_right fun hmem => (usedAt_iff ?_).mpr hmem
      simpa using hlt

end lastUses

/-! ## The scan -/

namespace Scan

/-- Exchanging one location changes no other. -/
lemma location_set {s : Scan} {v u : Nat} {l : ValueLocation} (hv : v < s.locations.length) :
    (s.locations.set v l).getD u {} = if u = v then l else s.location u := by
  by_cases huv : u = v
  · subst huv
    simp [List.getD, hv]
  · simp [List.getD, List.getElem?_set_ne (Ne.symm huv), huv, location]

@[simp] lemma length_spill {s : Scan} {v : Nat} {type : ValueType} :
    (s.spill v type).locations.length = s.locations.length := by simp [spill]

@[simp] lemma length_setRegister {s : Scan} {v : Nat} {r : Option Nat} :
    (s.setRegister v r).locations.length = s.locations.length := by simp [setRegister]

@[simp] lemma location_setBank {s : Scan} {bank : RegisterBank} {b : Bank} {v : Nat} :
    (s.setBank bank b).location v = s.location v := rfl

@[simp] lemma spillSlots_setBank {s : Scan} {bank : RegisterBank} {b : Bank} :
    (s.setBank bank b).spillSlots = s.spillSlots := rfl

@[simp] lemma locations_setBank {s : Scan} {bank : RegisterBank} {b : Bank} :
    (s.setBank bank b).locations = s.locations := rfl

@[simp] lemma banks_spill {s : Scan} {v : Nat} {type : ValueType} :
    (s.spill v type).banks = s.banks := rfl

@[simp] lemma banks_setRegister {s : Scan} {v : Nat} {r : Option Nat} :
    (s.setRegister v r).banks = s.banks := rfl

@[simp] lemma spillSlots_setRegister {s : Scan} {v : Nat} {r : Option Nat} :
    (s.setRegister v r).spillSlots = s.spillSlots := rfl

/-- Spilling changes no register. -/
@[simp] lemma registerIndex_spill (s : Scan) (v u : Nat) (type : ValueType) :
    ((s.spill v type).location u).registerIndex = (s.location u).registerIndex := by
  by_cases hv : v < s.locations.length
  · change ((s.locations.set v _).getD u {}).registerIndex = _
    rw [location_set hv]
    split_ifs with huv
    · rw [huv]
    · rfl
  · simp [spill, location, List.set_eq_of_length_le (Nat.le_of_not_lt hv)]

/-- Setting a register changes no slot. -/
@[simp] lemma spillSlot_setRegister {s : Scan} {v u : Nat} {r : Option Nat} :
    ((s.setRegister v r).location u).spillSlot = (s.location u).spillSlot := by
  by_cases hv : v < s.locations.length
  · change ((s.locations.set v _).getD u {}).spillSlot = _
    rw [location_set hv]
    split_ifs with huv
    · rw [huv]
    · rfl
  · simp [setRegister, location, List.set_eq_of_length_le (Nat.le_of_not_lt hv)]

/-- A new register is of its value only. -/
lemma registerIndex_setRegister {s : Scan} {v u : Nat} {r : Option Nat}
    (hv : v < s.locations.length) :
    ((s.setRegister v r).location u).registerIndex =
      if u = v then r else (s.location u).registerIndex := by
  change ((s.locations.set v _).getD u {}).registerIndex = _
  rw [location_set hv]
  split_ifs <;> rfl

/-- A spill gives a slot to its value only. -/
lemma spillSlot_spill {s : Scan} {v u : Nat} {type : ValueType} (hv : v < s.locations.length) :
    ((s.spill v type).location u).spillSlot =
      if u = v then some (reserveStackSlot type s.spillSlots).1
      else (s.location u).spillSlot := by
  change ((s.locations.set v _).getD u {}).spillSlot = _
  rw [location_set hv]
  split_ifs <;> rfl

end Scan

section scan

variable (f : Function) (vectorMode : VectorRegisterMode)

/-- The spill slots handed out so far are disjoint, below the reported number of slots, and even
for vectors. -/
structure Slotted (s : Scan) : Prop where
  packed : Packed (fun v => stackSlotWidth (nodeType f v)) 0 s.spillSlots
    fun v => (s.location v).spillSlot
  even : ∀ v slot, (s.location v).spillSlot = some slot →
    isVectorValueType (nodeType f v) → slot % 2 = 0

/-- The registers of one bank, by value. -/
def bankRegister (s : Scan) (bank : RegisterBank) (v : Nat) : Option Nat :=
  if registerBank (nodeType f v) vectorMode = some bank then (s.location v).registerIndex
  else none

variable {f vectorMode}

/-- Handing out another slot keeps the slots disjoint. -/
lemma Slotted.spill {s : Scan} {v : Nat} (h : Slotted f s) (hv : v < s.locations.length) :
    Slotted f (s.spill v (nodeType f v)) := by
  obtain ⟨hge, hnext, heven⟩ := reserveStackSlot_spec (nodeType f v) s.spillSlots
  have hslot : (fun u => ((s.spill v (nodeType f v)).location u).spillSlot) =
      Function.update (fun u => (s.location u).spillSlot) v
        (some (reserveStackSlot (nodeType f v) s.spillSlots).1) := by
    funext u
    rw [Scan.spillSlot_spill hv]
    by_cases huv : u = v
    · subst huv
      simp
    · simp [huv]
  constructor
  · rw [hslot]
    exact h.packed.assign (Nat.zero_le _) hge hnext.ge
  · intro u slot hu hvec
    rw [Scan.spillSlot_spill hv] at hu
    split_ifs at hu with huv
    · subst huv
      obtain rfl := Option.some.inj hu
      exact heven hvec
    · exact h.even u slot hu hvec

/-- A new register keeps the slots apart. -/
lemma Slotted.setRegister {s : Scan} {v : Nat} {r : Option Nat} (h : Slotted f s) :
    Slotted f (s.setRegister v r) :=
  ⟨by simpa using h.packed, by simpa using h.even⟩

/-- Exchanging a bank keeps the slots apart. -/
lemma Slotted.setBank {s : Scan} {bank : RegisterBank} {b : Bank} (h : Slotted f s) :
    Slotted f (s.setBank bank b) :=
  ⟨h.packed, h.even⟩

variable {lastUse : Nat → Nat} {wordRegisterCount simdRegisterCount : Nat}

/-- The invariant of the scan after the values below `i`. -/
structure ScanInv (f : Function) (vectorMode : VectorRegisterMode) (lastUse : Nat → Nat)
    (wordRegisterCount simdRegisterCount i : Nat) (s : Scan) : Prop where
  length : s.locations.length = f.nodes.length
  bank : ∀ bank, (s.banks bank).Inv lastUse (fun _ _ => False)
    (registerCount wordRegisterCount simdRegisterCount bank) i (bankRegister f vectorMode s bank)
  banked : ∀ v r, (s.location v).registerIndex = some r →
    ∃ bank, registerBank (nodeType f v) vectorMode = some bank
  located : ∀ v < i, (s.location v).registerIndex.isSome ∨ (s.location v).spillSlot.isSome
  slots : Slotted f s

/-- Only registers of the bank's own values matter for releasing registers. -/
lemma expire_bankRegister {s : Scan} {bank : RegisterBank} {i : Nat}
    (h : ScanInv f vectorMode lastUse wordRegisterCount simdRegisterCount i s) :
    (s.banks bank).expire lastUse (fun v => (s.location v).registerIndex) i =
      (s.banks bank).expire lastUse (bankRegister f vectorMode s bank) i := by
  have hsame : ∀ v ∈ (s.banks bank).active,
      (s.location v).registerIndex = bankRegister f vectorMode s bank v := by
    intro v hv
    obtain ⟨r, hr⟩ := (h.bank bank).active_reg v hv
    unfold bankRegister at hr ⊢
    split_ifs at hr ⊢
    rfl
  exact Bank.expire_congr hsame

/-- A value that receives a slot but no register. -/
lemma ScanInv.spillStep {s : Scan} {i : Nat} {b : RegisterBank → Bank}
    (h : ScanInv f vectorMode lastUse wordRegisterCount simdRegisterCount i s)
    (hi : i < f.nodes.length)
    (hb : ∀ bank, (b bank).Inv lastUse (fun _ _ => False)
      (registerCount wordRegisterCount simdRegisterCount bank) i
      (bankRegister f vectorMode s bank)) :
    ScanInv f vectorMode lastUse wordRegisterCount simdRegisterCount (i + 1)
      { s.spill i (nodeType f i) with banks := b } := by
  have hlt : i < s.locations.length := by rw [h.length]; exact hi
  have hreg : ∀ bank, bankRegister f vectorMode { s.spill i (nodeType f i) with banks := b } bank =
      bankRegister f vectorMode s bank := by
    intro bank
    funext v
    unfold bankRegister
    rw [← Scan.registerIndex_spill s i _ (nodeType f i)]
    rfl
  constructor
  case length => simpa using h.length
  case bank =>
    intro bank
    rw [hreg bank]
    exact (hb bank).skip
  case banked =>
    intro v r hr
    refine h.banked v r ?_
    rwa [← Scan.registerIndex_spill s i _ (nodeType f i)]
  case located =>
    intro v hv
    change ((s.spill i (nodeType f i)).location v).registerIndex.isSome ∨
      ((s.spill i (nodeType f i)).location v).spillSlot.isSome
    rw [Scan.registerIndex_spill, Scan.spillSlot_spill hlt]
    by_cases hvi : v = i
    · simp [hvi]
    · simpa [hvi] using h.located v (by omega)
  case slots =>
    obtain ⟨hpacked, heven⟩ := h.slots.spill hlt
    exact ⟨hpacked, heven⟩

/-- The bank registers after value `i` of bank `bank` received register `r`. -/
lemma bankRegister_setRegister {s s' : Scan} {i r : Nat} {bank : RegisterBank}
    (hbank : registerBank (nodeType f i) vectorMode = some bank)
    (hreg : ∀ v, (s'.location v).registerIndex =
      if v = i then some r else (s.location v).registerIndex) :
    bankRegister f vectorMode s' bank =
        Function.update (bankRegister f vectorMode s bank) i (some r) ∧
      ∀ other, other ≠ bank →
        bankRegister f vectorMode s' other = bankRegister f vectorMode s other := by
  constructor
  · funext v
    unfold bankRegister
    by_cases hv : v = i
    · subst hv
      simp [hbank, hreg]
    · simp [hv, hreg]
  · intro other hother
    funext v
    unfold bankRegister
    by_cases hv : v = i
    · subst hv
      simp [hbank, Ne.symm hother]
    · simp [hv, hreg]

/-- A value that receives a free register. -/
lemma ScanInv.takeStep {s : Scan} {i r : Nat} {rest : List Nat} {bank : RegisterBank} {b : Bank}
    (h : ScanInv f vectorMode lastUse wordRegisterCount simdRegisterCount i s)
    (hi : i < f.nodes.length) (hbank : registerBank (nodeType f i) vectorMode = some bank)
    (hb : b.Inv lastUse (fun _ _ => False)
      (registerCount wordRegisterCount simdRegisterCount bank) i
      (bankRegister f vectorMode s bank))
    (hfree : b.free = r :: rest) :
    ScanInv f vectorMode lastUse wordRegisterCount simdRegisterCount (i + 1)
      ((s.setRegister i (some r)).setBank bank ⟨b.active ++ [i], rest⟩) := by
  have hlt : i < s.locations.length := by rw [h.length]; exact hi
  have hreg : ∀ v, (((s.setRegister i (some r)).setBank bank
      ⟨b.active ++ [i], rest⟩).location v).registerIndex =
      if v = i then some r else (s.location v).registerIndex := by
    intro v
    rw [Scan.location_setBank, Scan.registerIndex_setRegister hlt]
  obtain ⟨hsame, hother⟩ := bankRegister_setRegister hbank hreg
  constructor
  case length => simpa using h.length
  case bank =>
    intro other
    by_cases heq : other = bank
    · subst heq
      rw [hsame]
      simpa [Scan.setBank] using hb.take hfree
    · rw [hother other heq]
      simpa [Scan.setBank, heq] using (h.bank other).skip
  case banked =>
    intro v r' hr'
    rw [hreg v] at hr'
    split_ifs at hr' with hv
    · exact ⟨bank, hv ▸ hbank⟩
    · exact h.banked v r' hr'
  case located =>
    intro v hv
    rw [hreg v]
    by_cases hvi : v = i
    · simp [hvi]
    · simpa [hvi] using h.located v (by omega)
  case slots => exact h.slots.setRegister.setBank

/-- A value that receives the register of a victim, which moves to the stack. -/
lemma ScanInv.evictStep {s : Scan} {i victim : Nat} {bank : RegisterBank} {b : Bank}
    (h : ScanInv f vectorMode lastUse wordRegisterCount simdRegisterCount i s)
    (hi : i < f.nodes.length) (hbank : registerBank (nodeType f i) vectorMode = some bank)
    (hb : b.Inv lastUse (fun _ _ => False)
      (registerCount wordRegisterCount simdRegisterCount bank) i
      (bankRegister f vectorMode s bank))
    (hvictim : victim ∈ b.active) :
    ScanInv f vectorMode lastUse wordRegisterCount simdRegisterCount (i + 1)
      ((((s.setRegister i (s.location victim).registerIndex).setRegister victim none).spill victim
        (nodeType f victim)).setBank bank
        ⟨b.active.map fun v => if v = victim then i else v, b.free⟩) := by
  have hlt : i < s.locations.length := by rw [h.length]; exact hi
  have hvi : victim < i := hb.active_lt victim hvictim
  have hvlt : victim < (s.setRegister i (s.location victim).registerIndex).locations.length := by
    rw [Scan.length_setRegister]
    omega
  obtain ⟨r, hr⟩ := hb.active_reg victim hvictim
  have hvbank : registerBank (nodeType f victim) vectorMode = some bank ∧
      (s.location victim).registerIndex = some r := by
    unfold bankRegister at hr
    split_ifs at hr with hcase
    exact ⟨hcase, hr⟩
  set s' := (((s.setRegister i (s.location victim).registerIndex).setRegister victim none).spill
    victim (nodeType f victim)).setBank bank
    ⟨b.active.map fun v => if v = victim then i else v, b.free⟩
  have hreg : ∀ v, (s'.location v).registerIndex =
      if v = i then some r else if v = victim then none else (s.location v).registerIndex := by
    intro v
    rw [Scan.location_setBank, Scan.registerIndex_spill, Scan.registerIndex_setRegister hvlt,
      Scan.registerIndex_setRegister hlt, hvbank.2]
    by_cases hv : v = victim
    · simp [hv, hvi.ne]
    · simp [hv]
  have hsame : bankRegister f vectorMode s' bank =
      Function.update (Function.update (bankRegister f vectorMode s bank) victim none) i
        (some r) := by
    funext v
    unfold bankRegister
    rw [hreg v]
    by_cases hv : v = i
    · subst hv
      simp [hbank]
    · by_cases hvv : v = victim
      · subst hvv
        simp [hv]
      · simp [hv, hvv]
  have hother : ∀ other, other ≠ bank →
      bankRegister f vectorMode s' other = bankRegister f vectorMode s other := by
    intro other hne
    funext v
    unfold bankRegister
    rw [hreg v]
    by_cases hv : v = i
    · subst hv
      simp [hbank, Ne.symm hne]
    · by_cases hvv : v = victim
      · subst hvv
        simp [hvbank.1, Ne.symm hne]
      · simp [hv, hvv]
  constructor
  case length => simpa [s'] using h.length
  case bank =>
    intro other
    by_cases heq : other = bank
    · subst heq
      rw [hsame]
      simpa [s', Scan.setBank] using hb.evict hvictim hr
    · rw [hother other heq]
      simpa [s', Scan.setBank, heq] using (h.bank other).skip
  case banked =>
    intro v r' hr'
    rw [hreg v] at hr'
    split_ifs at hr' with hv hvv
    · exact ⟨bank, hv ▸ hbank⟩
    · exact h.banked v r' hr'
  case located =>
    intro v hv
    by_cases hvv : v = victim
    · subst hvv
      right
      change ((Scan.spill _ _ _).location v).spillSlot.isSome
      rw [Scan.spillSlot_spill (by simpa using hvlt)]
      simp
    · by_cases hveq : v = i
      · left
        simp [hreg, hveq]
      · have hold := h.located v (by omega)
        rw [hreg v, if_neg hveq, if_neg hvv]
        refine hold.imp_right fun hslot => ?_
        change ((Scan.spill _ _ _).location v).spillSlot.isSome
        rw [Scan.spillSlot_spill (by simpa using hvlt), if_neg hvv]
        simpa using hslot
  case slots =>
    exact (h.slots.setRegister.setRegister.spill (by simpa using hvlt)).setBank

/-- The largest element is one of them. -/
lemma maxElement_mem {key : Nat → Nat} {vs : List Nat} {v : Nat}
    (h : maxElement key vs = some v) : v ∈ vs := by
  cases vs with
  | nil => simp [maxElement] at h
  | cons w ws =>
      obtain rfl := Option.some.inj h
      have hfold : ∀ (ws : List Nat) (best : Nat),
          ws.foldl (fun best w => if key best < key w then w else best) best = best ∨
            ws.foldl (fun best w => if key best < key w then w else best) best ∈ ws := by
        intro ws
        induction ws with
        | nil => simp
        | cons x xs ih =>
            intro best
            rcases ih (if key best < key x then x else best) with hx | hx
            · rw [List.foldl_cons, hx]
              split_ifs <;> simp
            · exact .inr (List.mem_cons_of_mem _ hx)
      rcases hfold ws w with hw | hw
      · simp [hw]
      · exact List.mem_cons_of_mem _ hw

/-- **Step lemma** of the scan. -/
lemma ScanInv.step {s : Scan} {i : Nat}
    (h : ScanInv f vectorMode lastUse wordRegisterCount simdRegisterCount i s)
    (hi : i < f.nodes.length) :
    ScanInv f vectorMode lastUse wordRegisterCount simdRegisterCount (i + 1)
      (scanStep f vectorMode lastUse s i) := by
  cases hbank : registerBank (nodeType f i) vectorMode with
  | none =>
      simp only [scanStep, hbank]
      exact h.spillStep hi h.bank
  | some bank =>
      simp only [scanStep, hbank, expire_bankRegister h]
      obtain ⟨hb, -⟩ := (h.bank bank).expire
      generalize (s.banks bank).expire lastUse (bankRegister f vectorMode s bank) i = b at hb ⊢
      have hspill : ScanInv f vectorMode lastUse wordRegisterCount simdRegisterCount (i + 1)
          ((s.spill i (nodeType f i)).setBank bank b) := by
        refine h.spillStep hi fun other => ?_
        by_cases heq : other = bank
        · subst heq
          simpa using hb
        · simpa [heq] using h.bank other
      cases hfree : b.free with
      | cons r rest => exact h.takeStep hi hbank hb hfree
      | nil =>
          cases hmax : maxElement lastUse b.active with
          | none => exact hspill
          | some victim =>
              dsimp only
              split_ifs with hlast
              · rw [← hfree]
                exact h.evictStep hi hbank hb (maxElement_mem hmax)
              · exact hspill

/-- At first no value lives anywhere. -/
@[simp] lemma Scan.location_initial {v : Nat} :
    (Scan.initial f wordRegisterCount simdRegisterCount).location v = {} := by
  simp only [Scan.initial, Scan.location, List.getD, List.getElem?_replicate]
  split_ifs <;> rfl

/-- The invariant holds before the scan. -/
lemma ScanInv.start :
    ScanInv f vectorMode lastUse wordRegisterCount simdRegisterCount 0
      (Scan.initial f wordRegisterCount simdRegisterCount) where
  length := by simp [Scan.initial]
  bank bank := by
    have hnone : bankRegister f vectorMode (Scan.initial f wordRegisterCount simdRegisterCount)
        bank = fun _ => none := by
      funext v
      simp [bankRegister]
    rw [hnone]
    exact Bank.Inv.start
  banked := by simp
  located := by simp
  slots := ⟨by simpa using Packed.empty, by simp⟩

/-- **Run lemma** of the scan. -/
lemma scanValues_inv :
    ScanInv f vectorMode lastUse wordRegisterCount simdRegisterCount f.nodes.length
      (scanValues f wordRegisterCount simdRegisterCount vectorMode lastUse) := by
  exact foldl_range_invariant
    (ScanInv f vectorMode lastUse wordRegisterCount simdRegisterCount) ScanInv.start
    fun i s hi h => h.step hi

end scan

/-! ## Calls -/

section calls

variable {f : Function} (lastUse : Nat → Nat)

/-- What spilling across calls keeps, relative to the scan it starts from. -/
structure CallInv (f : Function) (scanned s : Scan) : Prop where
  length : s.locations.length = f.nodes.length
  register : ∀ v, (s.location v).registerIndex = (scanned.location v).registerIndex
  slot : ∀ v, (scanned.location v).spillSlot.isSome → (s.location v).spillSlot.isSome
  slots : Slotted f s

lemma CallInv.refl {s : Scan} (hlength : s.locations.length = f.nodes.length)
    (hslots : Slotted f s) : CallInv f s s :=
  ⟨hlength, fun _ => rfl, fun _ => id, hslots⟩

lemma CallInv.trans {s t u : Scan} (h : CallInv f s t) (h' : CallInv f t u) : CallInv f s u :=
  ⟨h'.length, fun v => (h'.register v).trans (h.register v), fun v hv => h'.slot v (h.slot v hv),
    h'.slots⟩

/-- One value at one call: afterwards it has a slot if it needs one. -/
lemma spillAcrossCall_inv {s : Scan} {c v : Nat} (h : CallInv f s s) (hv : v < f.nodes.length) :
    CallInv f s (spillAcrossCall f lastUse c s v) ∧
      ((s.location v).registerIndex.isSome → c < lastUse v →
        ((spillAcrossCall f lastUse c s v).location v).spillSlot.isSome) := by
  have hlt : v < s.locations.length := by rw [h.length]; exact hv
  simp only [spillAcrossCall]
  split_ifs with hcond
  · refine ⟨⟨by simpa using h.length, fun u => by simp, fun u hu => ?_, h.slots.spill hlt⟩,
      fun _ _ => ?_⟩
    · rw [Scan.spillSlot_spill hlt]
      split_ifs
      · rfl
      · exact hu
    · simp [Scan.spillSlot_spill hlt]
  · refine ⟨h, fun hreg hlast => ?_⟩
    by_contra hslot
    exact hcond ⟨hreg, hlast, by simpa using hslot⟩

/-- All values at one call. -/
lemma spillAcrossCalls_inv {s : Scan} {c n : Nat} (h : CallInv f s s) (hn : n ≤ f.nodes.length) :
    CallInv f s ((List.range n).foldl (spillAcrossCall f lastUse c) s) ∧
      ∀ v < n, (s.location v).registerIndex.isSome → c < lastUse v →
        (((List.range n).foldl (spillAcrossCall f lastUse c) s).location v).spillSlot.isSome := by
  induction n with
  | zero => exact ⟨h, by simp⟩
  | succ n ih =>
      obtain ⟨hinv, hslots⟩ := ih (by omega)
      rw [List.range_succ, List.foldl_append]
      set t := (List.range n).foldl (spillAcrossCall f lastUse c) s
      have ht : CallInv f t t := CallInv.refl hinv.length hinv.slots
      obtain ⟨hstep, hslot⟩ := spillAcrossCall_inv lastUse (c := c) ht
        (show n < f.nodes.length by omega)
      refine ⟨hinv.trans hstep, fun v hv hreg hlast => ?_⟩
      by_cases hvn : v = n
      · subst hvn
        exact hslot (by rwa [hinv.register v]) hlast
      · exact hstep.slot v (hslots v (by omega) hreg hlast)

/-- All calls: every register-resident value used after a call has a slot. -/
lemma spillAcrossCallsAt_inv {s : Scan} {n : Nat} (h : CallInv f s s) (hn : n ≤ f.nodes.length) :
    CallInv f s ((List.range n).foldl (spillAcrossCallsAt f lastUse) s) ∧
      ∀ c < n, isCallAt f c → ∀ v < c, (s.location v).registerIndex.isSome → c < lastUse v →
        (((List.range n).foldl (spillAcrossCallsAt f lastUse) s).location v).spillSlot.isSome := by
  induction n with
  | zero => exact ⟨h, by simp⟩
  | succ n ih =>
      obtain ⟨hinv, hslots⟩ := ih (by omega)
      rw [List.range_succ, List.foldl_append]
      set t := (List.range n).foldl (spillAcrossCallsAt f lastUse) s
      have ht : CallInv f t t := CallInv.refl hinv.length hinv.slots
      simp only [List.foldl_cons, List.foldl_nil, spillAcrossCallsAt]
      split_ifs with hcall
      · obtain ⟨hstep, hslot⟩ := spillAcrossCalls_inv lastUse (c := n) ht
          (show n ≤ f.nodes.length by omega)
        refine ⟨hinv.trans hstep, fun c hc hcallc v hv hreg hlast => ?_⟩
        by_cases hcn : c = n
        · subst hcn
          exact hslot v hv (by rwa [hinv.register v]) hlast
        · exact hstep.slot v (hslots c (by omega) hcallc v hv hreg hlast)
      · refine ⟨hinv, fun c hc hcallc v hv hreg hlast => ?_⟩
        by_cases hcn : c = n
        · exact absurd (hcn ▸ hcallc) hcall
        · exact hslots c (by omega) hcallc v hv hreg hlast

end calls

/-! ## Soundness -/

namespace RegisterAllocation

/-- Where a value lives. -/
def location (a : RegisterAllocation) (v : Nat) : ValueLocation := a.locations.getD v {}

/-- **Sound allocations** of a function, for the given stack-map requirements and vector mode. -/
structure Sound (f : Function) (requirements : StackMapRequirements)
    (vectorMode : VectorRegisterMode) (a : RegisterAllocation) : Prop where
  /-- Every value has a register or a spill slot. -/
  located : ∀ v < f.nodes.length,
    (a.location v).registerIndex.isSome ∨ (a.location v).spillSlot.isSome
  /-- Of two values of one bank in the same register, the earlier is used only before the
  definition of the later. -/
  separated : ∀ u v r bank, u < v → v < f.nodes.length →
    registerBank (nodeType f u) vectorMode = some bank →
    registerBank (nodeType f v) vectorMode = some bank →
    (a.location u).registerIndex = some r → (a.location v).registerIndex = some r →
    ∀ p, UsedAt f requirements u p → p < v
  /-- The spill slots of two values do not overlap. -/
  disjoint : ∀ u v s t, u ≠ v →
    (a.location u).spillSlot = some s → (a.location v).spillSlot = some t →
    s + stackSlotWidth (nodeType f u) ≤ t ∨ t + stackSlotWidth (nodeType f v) ≤ s
  /-- A vector's slot is an even-aligned pair. -/
  aligned : ∀ v s, (a.location v).spillSlot = some s → isVectorValueType (nodeType f v) →
    s % 2 = 0 ∧ stackSlotWidth (nodeType f v) = 2
  /-- All slots lie below the reported number of slots. -/
  bounded : ∀ v s, (a.location v).spillSlot = some s →
    s + stackSlotWidth (nodeType f v) ≤ a.spillSlots
  /-- A register-resident value that is used after a call has a spill slot. -/
  acrossCalls : ∀ c < f.nodes.length, isCallAt f c → ∀ v < c,
    (a.location v).registerIndex.isSome → (∃ p, c < p ∧ UsedAt f requirements v p) →
    (a.location v).spillSlot.isSome

end RegisterAllocation

/-- **Straight-line register allocation is sound.** The claim needs no more of the function than
the verifier promises; where a value is used is read off the function, not off the allocator. -/
theorem allocateLinearScan_sound (f : Function) (wordRegisterCount simdRegisterCount : Nat)
    (requirements : StackMapRequirements) (vectorMode : VectorRegisterMode)
    (maximumSpillSlots : Nat) (a : RegisterAllocation) (_verified : f.verify = .ok ())
    (h : allocateLinearScan f wordRegisterCount simdRegisterCount requirements vectorMode
      maximumSpillSlots = .ok a) :
    a.Sound f requirements vectorMode := by
  simp only [allocateLinearScan, require_bind_eq_ok, pure_eq_ok] at h
  obtain ⟨-, -, rfl⟩ := h
  set lastUse := fun v => (collectLastUses f requirements).getD v 0
  have hscan : ScanInv f vectorMode lastUse wordRegisterCount simdRegisterCount f.nodes.length
      (scanValues f wordRegisterCount simdRegisterCount vectorMode lastUse) := scanValues_inv
  set scanned := scanValues f wordRegisterCount simdRegisterCount vectorMode lastUse
  obtain ⟨hinv, hcalls⟩ := spillAcrossCallsAt_inv lastUse
    (CallInv.refl hscan.length hscan.slots) le_rfl
  set s := (List.range f.nodes.length).foldl (spillAcrossCallsAt f lastUse) scanned
  have hbound : ∀ v, v < f.nodes.length → ∀ p, UsedAt f requirements v p → p ≤ lastUse v :=
    fun v hv => (collectLastUses_spec hv).2.1
  constructor
  case located =>
    intro v hv
    change (s.location v).registerIndex.isSome ∨ (s.location v).spillSlot.isSome
    rw [hinv.register v]
    exact (hscan.located v hv).imp_right (hinv.slot v)
  case separated =>
    intro u v r bank huv hv hbu hbv hru hrv p hp
    have hru : (scanned.location u).registerIndex = some r := (hinv.register u).symm.trans hru
    have hrv : (scanned.location v).registerIndex = some r := (hinv.register v).symm.trans hrv
    have hsep := (hscan.bank bank).separated u v r huv
      (by simpa [bankRegister, hbu] using hru) (by simpa [bankRegister, hbv] using hrv)
    have hlast : lastUse u < v := by simpa using hsep
    exact (hbound u (by omega) p hp).trans_lt hlast
  case disjoint => exact hinv.slots.packed.disjoint
  case aligned =>
    intro v slot hslot hvec
    exact ⟨hinv.slots.even v slot hslot hvec, by simp only [stackSlotWidth, hvec, if_true]⟩
  case bounded => exact hinv.slots.packed.below
  case acrossCalls =>
    rintro c hc hcall v hv hreg ⟨p, hp, hused⟩
    refine hcalls c hc hcall v hv ?_ (hp.trans_le (hbound v (by omega) p hused))
    rwa [← hinv.register v]

/-- A function whose first parameter is evicted: it is used last, after a safepoint. -/
def evictionSample : Function where
  parameterTypes := [.word]
  nodes :=
    [{ opcode := .parameter },
     { opcode := .op .constant, immediate := 7 },
     { opcode := .op (.binary .add), lhs := .ofIndex 1, rhs := .ofIndex 1 },
     { opcode := .op .safepoint, immediate := 3 },
     { opcode := .op (.binary .subtract), lhs := .ofIndex 2, rhs := .ofIndex 0 }]
  returnValue := .ofIndex 4

/-- What the allocator returns for the sample with one register in each bank. -/
def evictionSampleAllocation : RegisterAllocation where
  locations :=
    [{ spillSlot := some 0 }, { registerIndex := some 0 }, { spillSlot := some 1 },
     { registerIndex := some 0 }, { registerIndex := some 0 }]
  spillSlots := 2
  lastUses := [4, 2, 4, 3, 5]

/-- The allocation of a function that must evict is the expected one and sound. -/
theorem allocateLinearScan_sound_evictionSample :
    evictionSample.verify = .ok () ∧
      allocateLinearScan evictionSample 1 1 [⟨3, [.ofIndex 2]⟩] .sharedWithFloat64 8 =
        .ok evictionSampleAllocation ∧
      evictionSampleAllocation.Sound evictionSample [⟨3, [.ofIndex 2]⟩] .sharedWithFloat64 := by
  have hverified : evictionSample.verify = .ok () := by decide
  have hallocated : allocateLinearScan evictionSample 1 1 [⟨3, [.ofIndex 2]⟩] .sharedWithFloat64 8 =
      .ok evictionSampleAllocation := by rfl
  exact ⟨hverified, hallocated, allocateLinearScan_sound _ _ _ _ _ _ _ hverified hallocated⟩

end UniJit.Jit
