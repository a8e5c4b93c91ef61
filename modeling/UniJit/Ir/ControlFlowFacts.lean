import UniJit.Ir.ControlFlowVerifier
import UniJit.Ir.Verifier

/-!
# What the control-flow verifier guarantees

The verifier's scans carry mutable vectors. This module states their outcome without the scans:

* `DefinedAt f k b i`: value `k` is instruction `i` of block `b`; a verified graph defines every
  value exactly once (`verifyOwnership_ok`);
* `OwnedNode`: what the ownership scan checks of the node at a block position;
* `EdgeOk`: what it checks of an edge;
* `Verified`: the whole outcome, with the instructions and terminators well typed over the values
  available at their positions (`verify_verified`).
-/

namespace UniJit.Ir.ControlFlowFunction

open UniJit.Lib

variable {f : ControlFlowFunction}

/-- Value `k` is instruction `i` of block `b`. -/
def DefinedAt (f : ControlFlowFunction) (k b i : Nat) : Prop :=
  ∃ block v, f.blocks[b]? = some block ∧ block.instructions[i]? = some v ∧ v.index = k

/-- A definition is in a block of the graph. -/
lemma DefinedAt.block_lt {k b i : Nat} (h : f.DefinedAt k b i) : b < f.blocks.length := by
  obtain ⟨block, -, hblock, -⟩ := h
  exact (List.getElem?_eq_some_iff.mp hblock).1

/-- A position defines one value. -/
lemma DefinedAt.inj {k l b i : Nat} (hk : f.DefinedAt k b i) (hl : f.DefinedAt l b i) : k = l := by
  obtain ⟨block, v, hblock, hv, rfl⟩ := hk
  obtain ⟨block', v', hblock', hv', rfl⟩ := hl
  obtain rfl := Option.some.inj (hblock.symm.trans hblock')
  rw [Option.some.inj (hv.symm.trans hv')]

/-- What the ownership scan guarantees of instruction `i` of block `b`. -/
structure OwnedNode (f : ControlFlowFunction) (b : Nat) (block : BasicBlock) (i : Nat)
    (v : Value) (n : ControlNode) : Prop where
  valid : f.validValue v
  unused : unusedDescriptorsOk n n.opcode.isMemory n.opcode.isAtomicAccess
    (n.opcode = .op (.atomic .compareExchange)) n.opcode.isFrame n.opcode.isObject
  parameter : i < block.parameters.length → block.parameters[i]? = some v ∧
    n.opcode = expectedParameter b ∧
    n.immediate = BitVec.ofNat 64 i ∧ noOperands n ∧ noCallArguments n ∧
    (b = 0 → n.type = f.parameterType i ∧ isScalarValueType n.type)
  body : block.parameters.length ≤ i → ∃ o, n.opcode = .op o

/-- What the ownership scan guarantees of an edge. -/
structure EdgeOk (f : ControlFlowFunction) (edge : ControlEdge) : Prop where
  valid : f.validBlock edge.target
  notEntry : edge.target.index ≠ 0
  arguments : ∀ target, f.blocks[edge.target.index]? = some target →
    edge.arguments.length = target.parameters.length ∧
    ∀ (j : Nat) argument parameter, edge.arguments[j]? = some argument →
      target.parameters[j]? = some parameter →
      f.validValue argument ∧ f.valueType argument = f.valueType parameter

/-- What the ownership scan guarantees of a block. -/
structure OwnedBlock (f : ControlFlowFunction) (b : Nat) (block : BasicBlock) : Prop where
  parameters : block.parameters.length ≤ block.instructions.length
  instruction : ∀ (i : Nat) v, block.instructions[i]? = some v →
    ∃ n, f.nodes[v.index]? = some n ∧ f.OwnedNode b block i v n
  terminated : block.terminator ≠ .none
  edge : ∀ edge ∈ block.terminator.edges, f.EdgeOk edge

/-- One instruction of the ownership scan. -/
lemma verifyOwner_ok {b i : Nat} {block : BasicBlock} {v : Value} {owners owners' : Owners}
    (h : f.verifyOwner b block i v owners = .ok owners') :
    owners[v.index]? = some none ∧ owners' = owners.set v.index (some (b, i)) ∧
      ∃ n, f.nodes[v.index]? = some n ∧ f.OwnedNode b block i v n := by
  simp only [verifyOwner, require_bind_eq_ok] at h
  obtain ⟨⟨hvalid, hfree⟩, hm, ha, hx, hf, ho, h⟩ := h
  have hnode : f.nodes[v.index]? = some (f.nodes.getD v.index { opcode := .parameter }) := by
    simp [List.getD, List.getElem?_eq_getElem hvalid.2]
  set n := f.nodes.getD v.index { opcode := .parameter }
  have hunused : unusedDescriptorsOk n n.opcode.isMemory n.opcode.isAtomicAccess
      (n.opcode = .op (.atomic .compareExchange)) n.opcode.isFrame n.opcode.isObject :=
    ⟨hm, ha, by simpa using hx, hf, ho⟩
  split_ifs at h with hp
  · simp only [require_bind_eq_ok, pure_eq_ok] at h
    obtain ⟨hpar, ⟨hop, himm, hno, hargs⟩, hentry, rfl⟩ := h
    refine ⟨hfree, rfl, n, hnode, hvalid, hunused, fun _ => ⟨hpar, hop, himm, hno, hargs, ?_⟩,
      fun h => by omega⟩
    intro hb
    by_contra hcon
    exact hentry ⟨hb, not_and_or.mp hcon⟩
  · simp only [require_bind_eq_ok, pure_eq_ok] at h
    obtain ⟨hop, rfl⟩ := h
    refine ⟨hfree, rfl, n, hnode, hvalid, hunused, fun h => absurd h hp, fun _ => ?_⟩
    cases hopcode : n.opcode with
    | parameter => simp [hopcode, ControlOpcode.operation?] at hop
    | blockParameter => simp [hopcode, ControlOpcode.operation?] at hop
    | op o => exact ⟨o, rfl⟩

/-- One edge of the ownership scan. -/
lemma noteEdge_ok {b : Nat} {edge : ControlEdge} (h : f.noteEdge b edge = .ok ()) :
    f.EdgeOk edge := by
  simp only [noteEdge, require_bind_eq_ok, forM_eq_ok, require_eq_ok] at h
  obtain ⟨⟨hvalid, hentry⟩, hlength, hargs⟩ := h
  refine ⟨hvalid, hentry, fun target htarget => ?_⟩
  have hget : f.blocks.getD edge.target.index {} = target := by simp [List.getD, htarget]
  rw [hget] at hlength hargs
  refine ⟨hlength, fun j argument parameter ha hp => ?_⟩
  refine hargs (argument, parameter) (List.mem_iff_getElem?.mpr ⟨j, ?_⟩)
  simp [List.getElem?_zip_eq_some, ha, hp]

/-- The owners recorded when the scan stands at instruction `i` of block `b`. -/
def OwnersUpTo (f : ControlFlowFunction) (b i : Nat) (owners : Owners) : Prop :=
  owners.length = f.nodes.length ∧
    ∀ k b' i', owners[k]? = some (some (b', i')) ↔
      (b' < b ∨ b' = b ∧ i' < i) ∧ f.DefinedAt k b' i'

/-- Claiming the next instruction for its block extends the table of owners by one. -/
lemma ownersUpTo_step {b i : Nat} {block : BasicBlock} {v : Value} {owners : Owners}
    (hblock : f.blocks[b]? = some block) (hv : block.instructions[i]? = some v)
    (hfree : owners[v.index]? = some none) (h : f.OwnersUpTo b i owners) :
    f.OwnersUpTo b (i + 1) (owners.set v.index (some (b, i))) := by
  refine ⟨by simpa using h.1, fun k b' i' => ?_⟩
  have hlt : v.index < owners.length := (List.getElem?_eq_some_iff.mp hfree).1
  by_cases hk : v.index = k
  · subst hk
    rw [List.getElem?_set_self hlt]
    constructor
    · intro heq
      obtain ⟨rfl, rfl⟩ : b = b' ∧ i = i' := by simpa using heq
      exact ⟨.inr ⟨rfl, by omega⟩, block, v, hblock, hv, rfl⟩
    · rintro ⟨hpos, hdef⟩
      by_cases hsame : b' < b ∨ b' = b ∧ i' < i
      · have := (h.2 v.index b' i').mpr ⟨hsame, hdef⟩
        rw [hfree] at this
        exact absurd this (by simp)
      · obtain ⟨rfl, rfl⟩ : b' = b ∧ i' = i := by omega
        rfl
  · rw [List.getElem?_set_ne hk, h.2 k b' i']
    constructor
    · rintro ⟨hpos, hdef⟩
      exact ⟨by omega, hdef⟩
    · rintro ⟨hpos, hdef⟩
      refine ⟨?_, hdef⟩
      by_contra hcon
      obtain ⟨rfl, rfl⟩ : b' = b ∧ i' = i := by omega
      obtain ⟨block', v', hblock', hv', hk'⟩ := hdef
      obtain rfl := Option.some.inj (hblock.symm.trans hblock')
      obtain rfl := Option.some.inj (hv.symm.trans hv')
      exact hk hk'

/-- The scan of a block's instructions. -/
lemma verifyOwners_ok {b : Nat} {block : BasicBlock} {owners owners' : Owners}
    (hblock : f.blocks[b]? = some block) (start : f.OwnersUpTo b 0 owners)
    (h : foldExcept (f.verifyOwner b block) 0 block.instructions owners = .ok owners') :
    f.OwnersUpTo b block.instructions.length owners' ∧
      ∀ (i : Nat) v, block.instructions[i]? = some v →
        ∃ n, f.nodes[v.index]? = some n ∧ f.OwnedNode b block i v n := by
  constructor
  · have hinv := foldExcept_invariant (fun i owners => f.OwnersUpTo b i owners) ?_ start h
    · simpa using hinv
    · intro i v owners owners' hv _ hup hstep
      obtain ⟨hfree, rfl, -⟩ := verifyOwner_ok hstep
      exact ownersUpTo_step hblock (by simpa using hv) hfree hup
  · intro i v hv
    obtain ⟨m, m', -, hstep, -⟩ := foldExcept_split h hv
    exact (verifyOwner_ok hstep).2.2

/-- The scan of one block. -/
lemma verifyBlockOwnership_ok {b : Nat} {block : BasicBlock} {owners owners' : Owners}
    (hblock : f.blocks[b]? = some block) (start : f.OwnersUpTo b 0 owners)
    (h : f.verifyBlockOwnership b block owners = .ok owners') :
    f.OwnersUpTo (b + 1) 0 owners' ∧ f.OwnedBlock b block := by
  simp only [verifyBlockOwnership, require_bind_eq_ok, bind_eq_ok (x := foldExcept _ _ _ _),
    bind_eq_ok (x := List.forM _ _), forM_eq_ok, pure_eq_ok] at h
  obtain ⟨hparams, scanned, hscan, hterm, -, hedges, rfl⟩ := h
  obtain ⟨hup, hinstr⟩ := verifyOwners_ok hblock start hscan
  refine ⟨⟨hup.1, fun k b' i' => ?_⟩,
    hparams, hinstr, hterm, fun edge hedge => noteEdge_ok (hedges edge hedge)⟩
  rw [hup.2 k b' i']
  constructor
  · rintro ⟨hpos, hdef⟩
    exact ⟨by omega, hdef⟩
  · rintro ⟨hpos, hdef⟩
    refine ⟨?_, hdef⟩
    by_cases hb : b' = b
    · obtain ⟨block', v, hblock', hv, -⟩ := hdef
      rw [hb] at hblock'
      obtain rfl := Option.some.inj (hblock.symm.trans hblock')
      exact .inr ⟨hb, (List.getElem?_eq_some_iff.mp hv).1⟩
    · exact .inl (by omega)

/-- **Ownership**: a successful scan records, for each value, the one position that defines it. -/
lemma verifyOwnership_ok {owners : Owners} (h : f.verifyOwnership = .ok owners) :
    (∀ k b i, owners[k]? = some (some (b, i)) ↔ f.DefinedAt k b i) ∧
      (∀ k, k < f.nodes.length → ∃ b i, f.DefinedAt k b i) ∧
      ∀ (b : Nat) block, f.blocks[b]? = some block → f.OwnedBlock b block := by
  simp only [verifyOwnership, bind_eq_ok (x := foldExcept _ _ _ _), require_bind_eq_ok,
    pure_eq_ok] at h
  obtain ⟨scanned, hscan, howned, rfl⟩ := h
  have start : f.OwnersUpTo 0 0 (List.replicate f.nodes.length none) := by
    refine ⟨by simp, fun k b i => ?_⟩
    simp [List.getElem?_replicate]
  have hup : f.OwnersUpTo f.blocks.length 0 owners := by
    have hinv := foldExcept_invariant (fun b owners => f.OwnersUpTo b 0 owners) ?_ start hscan
    · simpa using hinv
    · intro b block owners owners' hblock _ hup hstep
      exact (verifyBlockOwnership_ok (by simpa using hblock) hup hstep).1
  have hdefined : ∀ k b i, owners[k]? = some (some (b, i)) ↔ f.DefinedAt k b i := by
    intro k b i
    rw [hup.2 k b i]
    refine ⟨And.right, fun hdef => ⟨?_, hdef⟩⟩
    obtain ⟨block, v, hblock, -⟩ := hdef
    exact .inl (List.getElem?_eq_some_iff.mp hblock).1
  refine ⟨hdefined, fun k hk => ?_, fun b block hblock => ?_⟩
  · have hlt : k < owners.length := by rw [hup.1]; exact hk
    have hsome := howned owners[k] (List.getElem_mem hlt)
    obtain ⟨⟨b, i⟩, hbi⟩ := Option.isSome_iff_exists.mp hsome
    exact ⟨b, i, (hdefined k b i).mp (by rw [List.getElem?_eq_getElem hlt, hbi])⟩
  · obtain ⟨m, m', hpre, hstep, -⟩ := foldExcept_split hscan hblock
    have hm : f.OwnersUpTo b 0 m := by
      have hinv := foldExcept_invariant (fun b owners => f.OwnersUpTo b 0 owners) ?_ start hpre
      · have hlt := (List.getElem?_eq_some_iff.mp hblock).1
        simpa [Nat.min_eq_left hlt.le] using hinv
      · intro c block' owners owners' hc _ hup hstep
        refine (verifyBlockOwnership_ok ?_ hup hstep).1
        simp only [Nat.sub_zero, List.getElem?_take] at hc
        split_ifs at hc
        exact hc
    exact (verifyBlockOwnership_ok hblock hm hstep).2

/-- **Owned graphs**: every value has one defining position, and the nodes and edges of every
block passed the ownership scan. -/
structure Owned (f : ControlFlowFunction) : Prop where
  unique : ∀ {k b i b' i'}, f.DefinedAt k b i → f.DefinedAt k b' i' → b = b' ∧ i = i'
  total : ∀ {k}, k < f.nodes.length → ∃ b i, f.DefinedAt k b i
  block : ∀ {b block}, f.blocks[b]? = some block → f.OwnedBlock b block

/-- In an owned graph every instruction of a block is a value. -/
lemma Owned.valid (h : f.Owned) {b i : Nat} {block : BasicBlock} {v : Value}
    (hblock : f.blocks[b]? = some block) (hv : block.instructions[i]? = some v) :
    f.validValue v := by
  obtain ⟨n, -, hnode⟩ := (h.block hblock).instruction i v hv
  exact hnode.valid

/-- In an owned graph every definition names a node. -/
lemma Owned.lt (h : f.Owned) {k b i : Nat} (hk : f.DefinedAt k b i) : k < f.nodes.length := by
  obtain ⟨block, v, hblock, hv, rfl⟩ := hk
  exact (h.valid hblock hv).2

/-- A verified graph is owned. -/
lemma verify_owned (h : f.verify = .ok ()) : f.Owned := by
  simp only [verify, require_bind_eq_ok, bind_eq_ok (x := verifyOwnership _)] at h
  obtain ⟨-, -, -, -, -, -, -, -, -, -, owners, howners, -⟩ := h
  obtain ⟨hdefined, htotal, hblock⟩ := verifyOwnership_ok howners
  refine ⟨fun hd hd' => ?_, fun hk => htotal _ hk, fun hb => hblock _ _ hb⟩
  have := ((hdefined _ _ _).mpr hd).symm.trans ((hdefined _ _ _).mpr hd')
  simpa using this

/-! ## Block bodies -/

/-- The side-table entries that a node of operation `o` claims. -/
def claimsOf (n : ControlNode) : Operation → List Claim
  | .call | .fastCall =>
      (List.range n.argumentCount.toNat).map fun i => (.callArguments, n.argumentBegin.toNat + i)
  | .memory _ => [(.memoryAccesses, n.memoryAccess.toNat)]
  | .atomic _ => [(.atomicAccesses, n.atomicAccess.toNat)]
  | .vectorConstant => [(.vectorConstants, n.immediate.toNat)]
  | .vectorShuffle => [(.vectorShuffles, n.immediate.toNat)]
  | .vectorSelect => [(.vectorSelects, n.immediate.toNat)]
  | _ => []

/-- Claiming call arguments succeeds when every argument passes its check with its entry free. -/
lemma claimArguments_eq_ok {start : Nat} {check : Nat → Value → Bool → Except Status Unit}
    {P : Nat → Value → Prop}
    (hcheck : ∀ i argument taken, check i argument taken = .ok () ↔ taken = false ∧ P i argument)
    {arguments : List Value} {claimed claimed' : List Claim} :
    claimArguments start check arguments claimed = .ok claimed' ↔
      (∀ i argument, arguments[i]? = some argument → P i argument) ∧
      (∀ c ∈ (List.range arguments.length).map fun i => ((.callArguments, start + i) : Claim),
        c ∉ claimed) ∧
      claimed' = ((List.range arguments.length).map fun i =>
        ((.callArguments, start + i) : Claim)).reverse ++ claimed := by
  -- the loop may start behind `offset` arguments, all of whose entries lie below
  have hgeneral : ∀ (arguments : List Value) (offset : Nat) (taken claimed' : List Claim),
      (∀ i, offset ≤ i → ((.callArguments, start + i) ∈ taken ↔
        (.callArguments, start + i) ∈ claimed)) →
      (foldExcept (fun index argument claimed => do
          check index argument (decide ((.callArguments, start + index) ∈ claimed))
          pure ((.callArguments, start + index) :: claimed)) offset arguments taken =
            .ok claimed' ↔
        (∀ i argument, arguments[i]? = some argument →
          (.callArguments, start + (offset + i)) ∉ claimed ∧ P (offset + i) argument) ∧
        claimed' = ((List.range arguments.length).map fun i =>
          ((.callArguments, start + (offset + i)) : Claim)).reverse ++ taken) := by
    intro arguments
    induction arguments with
    | nil =>
        intro offset taken claimed' _
        simp [eq_comm]
    | cons a as ih =>
        intro offset taken claimed' htaken
        rw [foldExcept_cons_eq_ok]
        have hhead : ∀ m : List Claim, (do
            check offset a (decide ((.callArguments, start + offset) ∈ taken))
            pure ((.callArguments, start + offset) :: taken) : Except Status (List Claim)) = .ok m ↔
            ((.callArguments, start + offset) ∉ claimed ∧ P offset a) ∧
              m = (.callArguments, start + offset) :: taken := by
          intro m
          rw [bind_eq_ok]
          simp only [pure_eq_ok, hcheck, decide_eq_false_iff_not, htaken offset le_rfl,
            exists_const]
        simp only [hhead]
        have htail : ∀ i, offset + 1 ≤ i →
            ((.callArguments, start + i) ∈ ((.callArguments, start + offset) :: taken : List Claim) ↔
              (.callArguments, start + i) ∈ claimed) := by
          intro i hi
          rw [List.mem_cons, htaken i (by omega)]
          refine or_iff_right ?_
          simp only [Prod.mk.injEq, true_and]
          omega
        constructor
        · rintro ⟨m, ⟨hfirst, rfl⟩, hrest⟩
          obtain ⟨hall, rfl⟩ := (ih _ _ _ htail).mp hrest
          refine ⟨fun i argument hi => ?_, ?_⟩
          · cases i with
            | zero =>
                obtain rfl : a = argument := by simpa using hi
                exact hfirst
            | succ i =>
                have := hall i argument (by simpa using hi)
                rwa [show offset + 1 + i = offset + (i + 1) by omega] at this
          · simp [List.range_succ_eq_map, Function.comp_def, Nat.add_assoc, Nat.add_comm 1]
        · rintro ⟨hall, rfl⟩
          refine ⟨_, ⟨by simpa using hall 0 a (by simp), rfl⟩, (ih _ _ _ htail).mpr ⟨?_, ?_⟩⟩
          · intro i argument hi
            have := hall (i + 1) argument (by simpa using hi)
            rwa [show offset + (i + 1) = offset + 1 + i by omega] at this
          · simp [List.range_succ_eq_map, Function.comp_def, Nat.add_assoc, Nat.add_comm 1]
  have hwhole := hgeneral arguments 0 claimed claimed' fun i _ => Iff.rfl
  simp only [Nat.zero_add] at hwhole
  rw [claimArguments, hwhole, ← and_assoc]
  refine and_congr_left fun _ => ⟨fun h => ⟨fun i a hi => (h i a hi).2, fun c hc => ?_⟩,
    fun h i a hi => ⟨h.2 _ ?_, h.1 i a hi⟩⟩
  · obtain ⟨i, hi, rfl⟩ := List.mem_map.mp hc
    exact (h i _ (List.getElem?_eq_getElem (List.mem_range.mp hi))).1
  · exact List.mem_map.mpr ⟨i, List.mem_range.mpr (List.getElem?_eq_some_iff.mp hi).1, rfl⟩

/-- A call's argument range inside the table. -/
lemma callArgumentsOf_eq_some {n : ControlNode} (hbegin : n.argumentBegin.toNat ≤
    f.callArguments.length) (hcount : n.argumentCount.toNat ≤
      f.callArguments.length - n.argumentBegin.toNat) :
    f.callArgumentsOf n =
        some ((f.callArguments.drop n.argumentBegin.toNat).take n.argumentCount.toNat) ∧
      ((f.callArguments.drop n.argumentBegin.toNat).take n.argumentCount.toNat).length =
        n.argumentCount.toNat := by
  refine ⟨if_pos (by omega), ?_⟩
  rw [List.length_take, List.length_drop]
  omega

/-- The recorded arguments of a call are the range of the side table that its node names. -/
lemma callArgumentsOf_range {n : ControlNode} {arguments : List Value}
    (h : f.callArgumentsOf n = some arguments) :
    arguments = (f.callArguments.drop n.argumentBegin.toNat).take n.argumentCount.toNat ∧
      n.argumentBegin.toNat ≤ f.callArguments.length ∧
      n.argumentCount.toNat ≤ f.callArguments.length - n.argumentBegin.toNat := by
  unfold SideTables.callArgumentsOf at h
  split_ifs at h with hrange
  exact ⟨(Option.some.inj h).symm, by omega, by omega⟩

/-- **One instruction of a body**: it is well typed, the side-table entries it refers to were free
and are now claimed, and its exit site is new. -/
lemma verifyOperation_eq_ok {Γ : Value → Option ValueType} {index : Nat} {n : ControlNode}
    {claimed claimed' : List Claim} {o : Operation} :
    f.verifyOperation Γ index n claimed o = .ok claimed' ↔
      Typed f.toSideTables Γ o n ∧ (∀ c ∈ claimsOf n o, c ∉ claimed) ∧
        (o.isRuntimeExit → f.siteUnused index n.immediate) ∧
        claimed' = (claimsOf n o).reverse ++ claimed := by
  cases o with
  | call =>
      simp only [verifyOperation, require_bind_eq_ok, Typed, claimsOf, Operation.isRuntimeExit,
        Bool.false_eq_true, false_implies, true_and]
      rw [claimArguments_eq_ok (P := fun _ argument => (Γ argument).any isScalarValueType = true)]
      · constructor
        · rintro ⟨⟨hno, hscalar, htarget, hbegin, hcount⟩, hall, hfree, rfl⟩
          obtain ⟨hargs, hlength⟩ := callArgumentsOf_eq_some hbegin hcount
          rw [hlength] at hfree ⊢
          refine ⟨⟨⟨htarget, hscalar, hno⟩, _, hargs, fun a ha => ?_⟩, hfree, rfl⟩
          obtain ⟨i, hi⟩ := List.mem_iff_getElem?.mp ha
          exact hall i a hi
        · rintro ⟨⟨⟨htarget, hscalar, hno⟩, arguments, hargs, hall⟩, hfree, rfl⟩
          obtain ⟨rfl, hbegin, hcount⟩ := callArgumentsOf_range hargs
          obtain ⟨-, hlength⟩ := callArgumentsOf_eq_some hbegin hcount
          rw [hlength]
          exact ⟨⟨hno, hscalar, htarget, hbegin, hcount⟩,
            fun i a hi => hall a (List.mem_of_getElem? hi), hfree, rfl⟩
      · intro i argument taken
        simp only [require_bind_eq_ok, require_eq_ok, Bool.not_eq_true]
        constructor
        · rintro ⟨⟨hfree, -⟩, hscalar⟩
          exact ⟨hfree, hscalar⟩
        · rintro ⟨hfree, hscalar⟩
          obtain ⟨type, htype, -⟩ := (Option.any_eq_true ..).mp hscalar
          exact ⟨⟨hfree, by simp [htype]⟩, hscalar⟩
  | fastCall =>
      simp only [verifyOperation, require_bind_eq_ok, Typed, claimsOf, Operation.isRuntimeExit,
        Bool.false_eq_true, false_implies, true_and]
      rw [claimArguments_eq_ok (P := fun i argument =>
        Γ argument = (f.fastCalls.getD n.immediate.toNat {}).parameterTypes[i]? ∧
          (Γ argument).isSome = true)]
      · constructor
        · rintro ⟨⟨htarget, hbegin, hcount⟩, ⟨htype, hsignature⟩, hall, hfree, rfl⟩
          obtain ⟨hargs, hlength⟩ := callArgumentsOf_eq_some hbegin hcount
          rw [hlength] at hfree ⊢
          have hget := List.getElem?_eq_getElem htarget.2.1
          have hdescriptor : f.fastCalls.getD n.immediate.toNat {} =
              f.fastCalls[n.immediate.toNat] := by simp [List.getD, hget]
          rw [hdescriptor] at htype hsignature hall
          refine ⟨⟨htarget, _, _, hget, hargs, htype, List.ext_getElem? fun i => ?_⟩, hfree, rfl⟩
          rw [List.getElem?_map, List.getElem?_map]
          cases hi : ((f.callArguments.drop n.argumentBegin.toNat).take
              n.argumentCount.toNat)[i]? with
          | none =>
              rw [List.getElem?_eq_none_iff, hlength, hsignature] at hi
              simp [List.getElem?_eq_none hi]
          | some a =>
              obtain ⟨htypes, hsome⟩ := hall i a hi
              obtain ⟨type, hΓ⟩ := Option.isSome_iff_exists.mp hsome
              rw [hΓ] at htypes
              rw [← htypes]
              simp [hΓ]
        · rintro ⟨⟨htarget, d, arguments, hd, hargs, htype, htypes⟩, hfree, rfl⟩
          obtain ⟨rfl, hbegin, hcount⟩ := callArgumentsOf_range hargs
          obtain ⟨-, hlength⟩ := callArgumentsOf_eq_some hbegin hcount
          have hdescriptor : f.fastCalls.getD n.immediate.toNat {} = d := by simp [List.getD, hd]
          have hsignature := congrArg List.length htypes
          rw [List.length_map, List.length_map, hlength] at hsignature
          rw [hdescriptor, hlength]
          refine ⟨⟨htarget, hbegin, hcount⟩, ⟨htype, hsignature⟩, fun i a hi => ?_, hfree, rfl⟩
          have hat := congrArg (·[i]?) htypes
          simp only [List.getElem?_map, hi, Option.map_some] at hat
          cases htype' : d.parameterTypes[i]? with
          | none => simp [htype'] at hat
          | some type =>
              have hΓ : Γ a = some type := by simpa [htype'] using hat
              simp [hΓ]
      · intro i argument taken
        simp only [require_eq_ok, Bool.not_eq_true]
  | memory o =>
      simp only [verifyOperation, require_bind_eq_ok, requireSiteUnused, Typed, claimsOf,
        Operation.isRuntimeExit, pure_eq_ok, true_implies, List.mem_singleton, forall_eq,
        List.reverse_singleton, List.singleton_append]
      constructor
      · rintro ⟨⟨hlt, hfree⟩, hok, hl, hs, hsite, rfl⟩
        refine ⟨⟨_, List.getElem?_eq_getElem hlt, ?_, hl, hs⟩, hfree, hsite, rfl⟩
        simpa only [List.getD, List.getElem?_eq_getElem hlt, Option.getD_some] using hok
      · rintro ⟨⟨access, ha, hok, hl, hs⟩, hfree, hsite, rfl⟩
        have hget : f.memoryAccesses.getD n.memoryAccess.toNat {} = access := by
          simp [List.getD, ha]
        rw [hget]
        exact ⟨⟨(List.getElem?_eq_some_iff.mp ha).1, hfree⟩, hok, hl, hs, hsite, rfl⟩
  | atomic o =>
      simp only [verifyOperation, require_bind_eq_ok, requireSiteUnused, Typed, claimsOf,
        Operation.isRuntimeExit, pure_eq_ok, true_implies, List.mem_singleton, forall_eq,
        List.reverse_singleton, List.singleton_append]
      constructor
      · rintro ⟨⟨hlt, hfree⟩, hok, hi, hd, hsite, rfl⟩
        refine ⟨⟨_, List.getElem?_eq_getElem hlt, ?_, hi, hd⟩, hfree, hsite, rfl⟩
        simpa only [List.getD, List.getElem?_eq_getElem hlt, Option.getD_some] using hok
      · rintro ⟨⟨access, ha, hok, hi, hd⟩, hfree, hsite, rfl⟩
        have hget : f.atomicAccesses.getD n.atomicAccess.toNat {} = access := by
          simp [List.getD, ha]
        rw [hget]
        exact ⟨⟨(List.getElem?_eq_some_iff.mp ha).1, hfree⟩, hok, hi, hd, hsite, rfl⟩
  | vectorConstant =>
      simp only [verifyOperation, require_bind_eq_ok, Typed, claimsOf, Operation.isRuntimeExit,
        pure_eq_ok, Bool.false_eq_true, false_implies, true_and, List.mem_singleton, forall_eq,
        List.reverse_singleton, List.singleton_append]
      constructor
      · rintro ⟨⟨hv, h0, hlt, hfree, ho, ha⟩, hm, rfl⟩
        rw [List.getD, List.getElem?_eq_getElem hlt, Option.getD_some] at hm
        exact ⟨⟨hv, h0, ho, ha, _, List.getElem?_eq_getElem hlt, hm⟩, hfree, rfl⟩
      · rintro ⟨⟨hv, h0, ho, ha, bits, hbits, hm⟩, hfree, rfl⟩
        have hget : f.vectorConstants.getD n.immediate.toNat 0 = bits := by simp [List.getD, hbits]
        rw [hget]
        exact ⟨⟨hv, h0, (List.getElem?_eq_some_iff.mp hbits).1, hfree, ho, ha⟩, hm, rfl⟩
  | vectorSelect =>
      simp only [verifyOperation, require_bind_eq_ok, Typed, claimsOf, Operation.isRuntimeExit,
        pure_eq_ok, Bool.false_eq_true, false_implies, true_and, List.mem_singleton, forall_eq,
        List.reverse_singleton, List.singleton_append]
      constructor
      · rintro ⟨⟨h0, hlt, hfree, hok⟩, rfl⟩
        rw [List.getD, List.getElem?_eq_getElem hlt, Option.getD_some] at hok
        exact ⟨⟨h0, _, List.getElem?_eq_getElem hlt, hok⟩, hfree, rfl⟩
      · rintro ⟨⟨h0, third, hthird, hok⟩, hfree, rfl⟩
        have hget : f.vectorSelectArguments.getD n.immediate.toNat .invalid = third := by
          simp [List.getD, hthird]
        rw [hget]
        exact ⟨⟨h0, (List.getElem?_eq_some_iff.mp hthird).1, hfree, hok⟩, rfl⟩
  | vectorShuffle =>
      simp only [verifyOperation, require_bind_eq_ok, Typed, claimsOf, Operation.isRuntimeExit,
        pure_eq_ok, Bool.false_eq_true, false_implies, true_and, List.mem_singleton, forall_eq,
        List.reverse_singleton, List.singleton_append]
      constructor
      · rintro ⟨⟨h0, hlt, hfree, hok⟩, hcount, hlanes, rfl⟩
        rw [List.getD, List.getElem?_eq_getElem hlt, Option.getD_some] at hcount hlanes
        exact ⟨⟨h0, hok, _, List.getElem?_eq_getElem hlt, hcount, hlanes⟩, hfree, rfl⟩
      · rintro ⟨⟨h0, hok, shuffle, hs, hcount, hlanes⟩, hfree, rfl⟩
        have hget : f.vectorShuffles.getD n.immediate.toNat ⟨Vector.replicate 16 0, 0⟩ =
            shuffle := by simp [List.getD, hs]
        rw [hget]
        exact ⟨⟨h0, (List.getElem?_eq_some_iff.mp hs).1, hfree, hok⟩, hcount, hlanes, rfl⟩
  | loadObject | storeObject =>
      simp only [verifyOperation, require_bind_eq_ok, Typed, claimsOf, pure_eq_ok,
        Operation.isRuntimeExit, Bool.false_eq_true, false_implies, true_and, List.not_mem_nil,
        implies_true, List.reverse_nil, List.nil_append]
      constructor
      · rintro ⟨hok, hfield, hl, rfl⟩
        exact ⟨⟨hok, SideTables.exists_trustedObject hok.1 hfield, hl⟩, rfl⟩
      · rintro ⟨⟨hok, ⟨object, hobject, hfield⟩, hl⟩, rfl⟩
        exact ⟨hok, by simpa [List.getD, hobject] using hfield, hl, rfl⟩
  | binary o =>
      simp only [verifyOperation, require_bind_eq_ok, Typed, claimsOf, pure_eq_ok,
        Operation.isRuntimeExit, Bool.false_eq_true, false_implies, true_and, List.not_mem_nil,
        implies_true, List.reverse_nil, List.nil_append]
      constructor
      · rintro ⟨⟨-, -, hargs⟩, htypes, rfl⟩
        exact ⟨⟨htypes, hargs⟩, rfl⟩
      · rintro ⟨⟨htypes, hargs⟩, rfl⟩
        exact ⟨⟨by simp [htypes.2.1], by simp [htypes.2.2], hargs⟩, htypes, rfl⟩
  | _ =>
      simp only [verifyOperation, require_bind_eq_ok, requireSiteUnused, Typed, claimsOf,
        Operation.isRuntimeExit, pure_eq_ok, List.not_mem_nil, implies_true, List.reverse_nil,
        List.nil_append, true_and, and_assoc, false_implies, true_implies, Bool.false_eq_true]

/-- The owners that the ownership scan records. -/
def owners (f : ControlFlowFunction) : Owners := f.verifyOwnership.toOption.getD []

/-- The operand context of a position of a block. -/
abbrev context (f : ControlFlowFunction) (b i : Nat) : Value → Option ValueType :=
  f.availableType f.owners f.dominates b i

/-- What the verifier guarantees of the instruction `v` at a body position. -/
structure VerifiedNode (f : ControlFlowFunction) (b i : Nat) (v : Value) (n : ControlNode)
    (o : Operation) : Prop where
  node : f.nodes[v.index]? = some n
  opcode : n.opcode = .op o
  typed : Typed f.toSideTables (f.context b i) o n
  site : o.isRuntimeExit → f.siteUnused v.index n.immediate

/-- What the verifier guarantees of a terminator, over an operand context. -/
def TerminatorTyped (Γ : Value → Option ValueType) : ControlTerminator → Prop
  | .none => False
  | .ret value => (Γ value).any isScalarValueType
  | .jump edge => ∀ argument ∈ edge.arguments, (Γ argument).isSome
  | .branch condition trueEdge falseEdge => Γ condition = some .word ∧
      (∀ argument ∈ trueEdge.arguments, (Γ argument).isSome) ∧
      ∀ argument ∈ falseEdge.arguments, (Γ argument).isSome

/-- **Verified graphs**: what the verifier guarantees, with its scans replaced by statements about
every block and every position. -/
structure Verified (f : ControlFlowFunction) : Prop where
  entry : f.blocks ≠ [] ∧ f.entryBlock = Block.ofIndex 0
  parameters : f.parameterCount = (f.blocks.getD 0 {}).parameters.length
  tables : f.toSideTables.Sound
  owned : f.Owned
  owners : ∀ k b i, f.owners[k]? = some (some (b, i)) ↔ f.DefinedAt k b i
  reachable : ∀ reached ∈ f.reachable, reached = true
  node : ∀ {b block i v}, f.blocks[b]? = some block → block.parameters.length ≤ i →
    block.instructions[i]? = some v → ∃ n o, f.VerifiedNode b i v n o
  terminator : ∀ {b block}, f.blocks[b]? = some block →
    TerminatorTyped (f.context b block.instructions.length) block.terminator
  claimed : ∀ table index, index < f.claimTableSize table →
    ∃ b i v n o, f.VerifiedNode b i v n o ∧ (table, index) ∈ claimsOf n o

/-- The type under which a value is available is the type of the value. -/
lemma availableType_eq_some {owners : Owners} {dominates : List (List Bool)} {b i : Nat} {v : Value}
    {type : ValueType} (h : f.availableType owners dominates b i v = some type) :
    f.valueType v = type := by
  unfold availableType at h
  split_ifs at h
  exact Option.some.inj h

/-- An available value is available under its own type. -/
lemma availableType_of_isSome {owners : Owners} {dominates : List (List Bool)} {b i : Nat}
    {v : Value} (h : (f.availableType owners dominates b i v).isSome) :
    f.availableType owners dominates b i v = some (f.valueType v) := by
  obtain ⟨type, htype⟩ := Option.isSome_iff_exists.mp h
  rw [htype, availableType_eq_some htype]

/-- The check of a terminator. -/
lemma verifyTerminator_ok {owners : Owners} {dominates : List (List Bool)} {b i : Nat}
    {terminator : ControlTerminator} {returnType returnType' : Option ValueType}
    (hterm : terminator ≠ .none)
    (h : f.verifyTerminator (f.availableType owners dominates b i) b terminator returnType =
      .ok returnType') :
    TerminatorTyped (f.availableType owners dominates b i) terminator := by
  cases terminator with
  | none => exact hterm rfl
  | ret value =>
      simp only [verifyTerminator, require_bind_eq_ok] at h
      obtain ⟨hsome, hscalar, -⟩ := h
      simp only [TerminatorTyped, availableType_of_isSome hsome, Option.any_some]
      exact hscalar
  | jump edge =>
      simp only [verifyTerminator, require_bind_eq_ok] at h
      exact h.1
  | branch condition trueEdge falseEdge =>
      simp only [verifyTerminator, require_bind_eq_ok] at h
      obtain ⟨hsome, hword, hargs, -⟩ := h
      exact ⟨by rw [availableType_of_isSome hsome, hword], hargs⟩

/-- The check of the instruction at a body position. -/
lemma verifyBodyNode_ok {owners : Owners} {dominates : List (List Bool)} {b i : Nat} {v : Value}
    {n : ControlNode} {claimed claimed' : List Claim} (hn : f.nodes[v.index]? = some n)
    (h : f.verifyBodyNode owners dominates b i v claimed = .ok claimed') :
    ∃ o, n.opcode = .op o ∧ Typed f.toSideTables (f.availableType owners dominates b i) o n ∧
      (o.isRuntimeExit → f.siteUnused v.index n.immediate) ∧
      claimed' = (claimsOf n o).reverse ++ claimed := by
  have hget : f.nodes.getD v.index { opcode := .parameter } = n := by simp [List.getD, hn]
  simp only [verifyBodyNode, hget] at h
  cases hopcode : n.opcode with
  | parameter => simp [hopcode, throw, throwThe, MonadExceptOf.throw] at h
  | blockParameter => simp [hopcode, throw, throwThe, MonadExceptOf.throw] at h
  | op o =>
      rw [hopcode] at h
      obtain ⟨htyped, -, hsite, hclaimed⟩ := verifyOperation_eq_ok.mp h
      exact ⟨o, rfl, htyped, hsite, hclaimed⟩

/-- The check of one block's body and terminator: its instructions and its terminator are well
typed, and every entry claimed in it is claimed by an instruction. -/
lemma verifyBlockBody_ok (howned : f.Owned) {b : Nat} {block : BasicBlock}
    (hblock : f.blocks[b]? = some block) {state state' : List Claim × Option ValueType}
    (h : f.verifyBlockBody f.owners f.dominates b block state = .ok state') :
    (∀ i v, block.parameters.length ≤ i → block.instructions[i]? = some v →
        ∃ n o, f.VerifiedNode b i v n o) ∧
      TerminatorTyped (f.context b block.instructions.length) block.terminator ∧
      ∀ c ∈ state'.1, c ∈ state.1 ∨ ∃ i v n o, f.VerifiedNode b i v n o ∧ c ∈ claimsOf n o := by
  simp only [verifyBlockBody, bind_eq_ok, pure_eq_ok] at h
  obtain ⟨claimed, hbody, returnType, hterm, rfl⟩ := h
  have hstep : ∀ (j : Nat) v taken taken',
      (block.instructions.drop block.parameters.length)[j - block.parameters.length]? = some v →
      block.parameters.length ≤ j →
      f.verifyBodyNode f.owners f.dominates b j v taken = .ok taken' →
      ∃ n o, f.VerifiedNode b j v n o ∧ taken' = (claimsOf n o).reverse ++ taken := by
    intro j v taken taken' hv hj hrun
    rw [List.getElem?_drop, Nat.add_sub_cancel' hj] at hv
    obtain ⟨n, hn, -⟩ := (howned.block hblock).instruction j v hv
    obtain ⟨o, hopcode, htyped, hsite, htaken⟩ := verifyBodyNode_ok hn hrun
    exact ⟨n, o, ⟨hn, hopcode, htyped, hsite⟩, htaken⟩
  refine ⟨fun i v hi hv => ?_, verifyTerminator_ok (howned.block hblock).terminated hterm, ?_⟩
  · have hv' : (block.instructions.drop block.parameters.length)[i - block.parameters.length]? =
        some v := by rwa [List.getElem?_drop, Nat.add_sub_cancel' hi]
    obtain ⟨taken, taken', hrun⟩ := foldExcept_at hbody hv'
    rw [Nat.add_sub_cancel' hi] at hrun
    obtain ⟨n, o, hnode, -⟩ := hstep i v taken taken' hv' hi hrun
    exact ⟨n, o, hnode⟩
  · refine foldExcept_invariant (fun _ (taken : List Claim) => ∀ c ∈ taken, c ∈ state.1 ∨
      ∃ i v n o, f.VerifiedNode b i v n o ∧ c ∈ claimsOf n o) ?_ (fun c hc => .inl hc) hbody
    intro j v taken taken' hv hj htaken hrun c hc
    obtain ⟨n, o, hnode, rfl⟩ := hstep j v taken taken' hv hj hrun
    rcases List.mem_append.mp hc with hc | hc
    · exact .inr ⟨j, v, n, o, hnode, List.mem_reverse.mp hc⟩
    · exact htaken c hc

/-- The verifier accepts only verified graphs. -/
lemma verify_verified (h : f.verify = .ok ()) : f.Verified := by
  have howned := verify_owned h
  simp only [verify, require_bind_eq_ok, bind_eq_ok (x := verifyOwnership _),
    bind_eq_ok (x := foldExcept _ _ _ _), forM_eq_ok, require_eq_ok] at h
  obtain ⟨hentry, hparams, hregions, hframes, hscalar, hobjects, hobject, hcells, hcalls, hcall,
    owners, howners, hreachable, ⟨claimed, returnType⟩, hbodies, hclaimed⟩ := h
  have heq : f.owners = owners := by simp [ControlFlowFunction.owners, howners, Except.toOption]
  subst heq
  have hblock : ∀ b block, f.blocks[b]? = some block → ∃ state state',
      f.verifyBlockBody f.owners f.dominates b block state = .ok state' := by
    intro b block hb
    obtain ⟨m, m', -, hrun, -⟩ := foldExcept_split hbodies hb
    exact ⟨m, m', hrun⟩
  refine ⟨hentry, hparams, ⟨⟨hregions, hframes, hobjects, hcells, hcalls⟩, hscalar, hobject, hcall⟩,
    howned, (verifyOwnership_ok howners).1, hreachable, ?_, ?_, ?_⟩
  · intro b block i v hb hi hv
    obtain ⟨state, state', hrun⟩ := hblock b block hb
    exact (verifyBlockBody_ok howned hb hrun).1 i v hi hv
  · intro b block hb
    obtain ⟨state, state', hrun⟩ := hblock b block hb
    exact (verifyBlockBody_ok howned hb hrun).2.1
  · intro table index hindex
    have hmem : (table, index) ∈ claimed :=
      hclaimed table (by cases table <;> decide) index (List.mem_range.mpr hindex)
    have hinv := foldExcept_invariant (fun _ (state : List Claim × Option ValueType) =>
      ∀ c ∈ state.1, ∃ b i v n o, f.VerifiedNode b i v n o ∧ c ∈ claimsOf n o) ?_ (by simp) hbodies
    · exact hinv _ hmem
    · intro b block state state' hb _ hstate hrun c hc
      rcases (verifyBlockBody_ok howned (by simpa using hb) hrun).2.2 c hc with hold | hnew
      · exact hstate c hold
      · exact ⟨b, hnew⟩

/-- Every node with an operation obeys its rule, at the position that defines it. -/
lemma Verified.typed_of_mem (h : f.Verified) {n : ControlNode} (hn : n ∈ f.nodes) {o : Operation}
    (ho : n.opcode = .op o) : ∃ Γ, Typed f.toSideTables Γ o n := by
  obtain ⟨k, hk⟩ := List.mem_iff_getElem?.mp hn
  obtain ⟨b, i, block, v, hblock, hv, rfl⟩ :=
    h.owned.total (List.getElem?_eq_some_iff.mp hk).1
  by_cases hparameter : i < block.parameters.length
  · obtain ⟨n', hn', hnode⟩ := (h.owned.block hblock).instruction i v hv
    obtain rfl := Option.some.inj (hk.symm.trans hn')
    have hopcode := (hnode.parameter hparameter).2.1
    rw [ho, expectedParameter] at hopcode
    split_ifs at hopcode
  · obtain ⟨n', o', hnode⟩ := h.node hblock (not_lt.mp hparameter) hv
    obtain rfl := Option.some.inj (hk.symm.trans hnode.node)
    obtain rfl := ControlOpcode.op.inj (ho.symm.trans hnode.opcode)
    exact ⟨_, hnode.typed⟩

end UniJit.Ir.ControlFlowFunction
