import UniJit.Ir.ArrayInterpreters
import UniJit.Ir.InterpreterSafety

/-!
# The two interpreters agree

A straight-line function is a graph with one block that returns. `Function.toControlFlow` is that
graph: the same nodes, all of them instructions of the block in their order. It verifies, and the
two interpreters run it alike, up to the texts of three statuses.

The verifiers count differently. The straight-line one expects each node to refer to the next
entries of its side table, and compares counters at the end; the other notes every entry that was
claimed. `mem_claimedAt` connects the two: the entries claimed before a node are those below the
counters there. The runs are compared dispatch by dispatch (`executeInstruction_matches`) and then
along the nodes; the parameters, which a graph assigns before it starts, are the first nodes of a
straight line.
-/

namespace UniJit.Ir

open UniJit.Lib UniJit.Runtime

/-- The node of a graph with the same operation and operands. -/
def Node.toControl (n : Node) : ControlNode :=
  { n with
    opcode := match n.opcode with
      | .parameter => .parameter
      | .op o => .op o }

/-- A straight-line function as a graph with one block. -/
def Function.toControlFlow (f : Function) : ControlFlowFunction where
  toSideTables := f.toSideTables
  parameterTypes := f.parameterTypes
  entryBlock := .ofIndex 0
  nodes := f.nodes.map Node.toControl
  blocks :=
    [{ parameters := (List.range f.parameterCount).map Value.ofIndex
       instructions := (List.range f.nodes.length).map Value.ofIndex
       terminator := .ret f.returnValue }]

/-! ## The graph of a function verifies -/

/-- The entries of a table that the nodes so far have claimed. -/
def Expected.count (e : Expected) : ClaimTable → Nat
  | .callArguments => e.callArgument
  | .memoryAccesses => e.memoryAccess
  | .atomicAccesses => e.atomicAccess
  | .vectorConstants => e.vectorConstant
  | .vectorShuffles => e.vectorShuffle
  | .vectorSelects => e.vectorSelect

/-- A node that claims the next entries of its table claims those up to the new counter. -/
lemma mem_claimsOf {e : Expected} {n : ControlNode} {o : Operation} (h : e.Claims o n)
    {table : ClaimTable} {k : Nat} : (table, k) ∈ ControlFlowFunction.claimsOf n o ↔
      e.count table ≤ k ∧ k < (e.advance o n).count table := by
  cases o with
  | call | fastCall =>
      simp only [Expected.Claims] at h
      cases table <;>
        simp only [ControlFlowFunction.claimsOf, Expected.count, Expected.advance, List.mem_map,
          List.mem_range, Prod.mk.injEq, reduceCtorEq, false_and, and_false, exists_false,
          false_iff, true_and, not_and, not_lt, imp_self]
      constructor
      · rintro ⟨i, hi, rfl⟩
        omega
      · intro hk
        exact ⟨k - e.callArgument, by omega, by omega⟩
  | memory _ | atomic _ | vectorConstant | vectorShuffle | vectorSelect =>
      simp only [Expected.Claims] at h
      cases table <;>
        simp only [ControlFlowFunction.claimsOf, Expected.count, Expected.advance,
          List.mem_singleton, Prod.mk.injEq, reduceCtorEq, false_and, false_iff, true_and, not_and,
          not_lt, imp_self]
      omega
  | _ =>
      simp only [ControlFlowFunction.claimsOf, Expected.advance, List.not_mem_nil, false_iff,
        not_and, not_lt, imp_self]

namespace Function

variable {f : Function}

/-- The one-block graph gives every value the type it had. -/
lemma toControlFlow_valueType (v : Value) : f.toControlFlow.valueType v = f.valueType v := by
  unfold valueType ControlFlowFunction.valueType
  simp only [toControlFlow, List.getElem?_map, Option.map_map]
  rfl

/-- The entries claimed by the nodes before `index`, the latest first. -/
def claimedAt (f : Function) (index : Nat) : List Claim :=
  (f.nodes.take index).foldl
    (fun claimed n => match n.opcode with
      | .parameter => claimed
      | .op o => (ControlFlowFunction.claimsOf n.toControl o).reverse ++ claimed) []

/-- What the nodes up to an index claim, one node further. -/
lemma claimedAt_succ {index : Nat} {n : Node} (hn : f.nodes[index]? = some n) :
    f.claimedAt (index + 1) = match n.opcode with
      | .parameter => f.claimedAt index
      | .op o => (ControlFlowFunction.claimsOf n.toControl o).reverse ++ f.claimedAt index := by
  obtain ⟨hlt, rfl⟩ := List.getElem?_eq_some_iff.mp hn
  simp only [claimedAt, List.take_succ_eq_append_getElem hlt, List.foldl_append, List.foldl_cons,
    List.foldl_nil]

/-- The cursors into the side tables, one node further. -/
lemma expectedAt_succ {index : Nat} {n : Node} (hn : f.nodes[index]? = some n) :
    f.expectedAt (index + 1) = advanceNode (f.expectedAt index) n := by
  obtain ⟨hlt, rfl⟩ := List.getElem?_eq_some_iff.mp hn
  simp only [expectedAt, List.take_succ_eq_append_getElem hlt, List.foldl_append, List.foldl_cons,
    List.foldl_nil]

/-- The claimed entries of each table are those below its counter. -/
lemma mem_claimedAt (verified : f.Verified) {index : Nat} (hindex : index ≤ f.nodes.length)
    {table : ClaimTable} {k : Nat} :
    (table, k) ∈ f.claimedAt index ↔ k < (f.expectedAt index).count table := by
  induction index with
  | zero => cases table <;> simp [claimedAt, expectedAt, Expected.count]
  | succ index ih =>
      have hn := List.getElem?_eq_getElem (Nat.lt_of_succ_le hindex)
      rw [claimedAt_succ hn, expectedAt_succ hn]
      by_cases hparameter : index < f.parameterCount
      · obtain ⟨hopcode, -⟩ := (verified.node index _ hn).parameter hparameter
        simp only [advanceNode, hopcode]
        exact ih (by omega)
      · obtain ⟨o, hopcode, -, hclaims, -⟩ := (verified.node index _ hn).operation (by omega)
        have hclaims' : (f.expectedAt index).Claims o (f.nodes[index]).toControl := by
          cases o <;> exact hclaims
        have hadvance : (f.expectedAt index).advance o (f.nodes[index]).toControl =
            (f.expectedAt index).advance o f.nodes[index] := by cases o <;> rfl
        have hmem : (table, k) ∈ ControlFlowFunction.claimsOf (f.nodes[index]).toControl o ↔
            (f.expectedAt index).count table ≤ k ∧
              k < ((f.expectedAt index).advance o f.nodes[index]).count table := by
          rw [← hadvance]
          exact mem_claimsOf hclaims'
        have hle : (f.expectedAt index).count table ≤
            ((f.expectedAt index).advance o f.nodes[index]).count table := by
          cases o <;> cases table <;> simp [Expected.advance, Expected.count]
        simp only [advanceNode, hopcode, List.mem_append, List.mem_reverse, hmem, ih (by omega)]
        omega

/-- The owners of the values: all belong to the only block, in order. -/
def ownersUpTo (f : Function) (index : Nat) : Owners :=
  (List.range f.nodes.length).map fun k => if k < index then some (0, k) else none

/-- Claiming a node for the only block extends the table of owners. -/
lemma ownersUpTo_set {index : Nat} (h : index < f.nodes.length) :
    (f.ownersUpTo index).set index (some (0, index)) = f.ownersUpTo (index + 1) := by
  apply List.ext_getElem?
  intro k
  rw [List.getElem?_set]
  by_cases hk : index = k
  · subst hk
    simp [ownersUpTo, h]
  · simp only [hk, if_false, ownersUpTo, List.getElem?_map]
    cases hrange : (List.range f.nodes.length)[k]? with
    | none => rfl
    | some l =>
        obtain ⟨hlt, rfl⟩ := List.getElem?_eq_some_iff.mp hrange
        simp only [List.getElem_range, Option.map_some]
        congr 2
        exact propext ⟨fun h => by omega, fun h => by omega⟩

/-- The block of the graph. -/
def onlyBlock (f : Function) : BasicBlock where
  parameters := (List.range f.parameterCount).map Value.ofIndex
  instructions := (List.range f.nodes.length).map Value.ofIndex
  terminator := .ret f.returnValue

/-- The nodes of the function are values of the graph. -/
lemma validValue_toControlFlow (hnodes : f.nodes.length ≤ kInvalidIndex.toNat) {index : Nat}
    (h : index < f.nodes.length) : f.toControlFlow.validValue (.ofIndex index) := by
  refine ⟨Value.valid_ofIndex (by omega), ?_⟩
  rw [Value.index_ofIndex (by omega)]
  simpa [toControlFlow] using h

/-- Each value is owned by its position. -/
lemma verifyOwner_toControlFlow (verified : f.Verified)
    (hnodes : f.nodes.length ≤ kInvalidIndex.toNat)
    (hparameters : ∀ n ∈ f.nodes.take f.parameterCount, noOperands n) {index : Nat}
    (h : index < f.nodes.length) :
    f.toControlFlow.verifyOwner 0 f.onlyBlock index (.ofIndex index) (f.ownersUpTo index) =
      .ok (f.ownersUpTo (index + 1)) := by
  have hn := List.getElem?_eq_getElem h
  have hvalid := validValue_toControlFlow hnodes h
  have hid : (Value.ofIndex index).index = index := Value.index_ofIndex (by omega)
  have hnode : f.toControlFlow.nodes.getD index { opcode := .parameter } =
      (f.nodes[index]).toControl := by
    simp [toControlFlow, List.getD, h]
  have hfree : (f.ownersUpTo index)[index]? = some none := by
    simp [ownersUpTo, h]
  obtain ⟨hmemory, hatomic, hauxiliary, hframe, hobject⟩ := (verified.node index _ hn).unused
  have hlength : f.onlyBlock.parameters.length = f.parameterCount := by simp [onlyBlock]
  simp only [ControlFlowFunction.verifyOwner, require_bind_eq_ok, hid, hnode, hlength,
    ownersUpTo_set h]
  refine ⟨⟨hvalid, hfree⟩, ?_⟩
  by_cases hp : index < f.parameterCount
  · obtain ⟨hopcode, himm, htype, hscalar, hcall⟩ := (verified.node index _ hn).parameter hp
    have hcontrol : (f.nodes[index]).toControl.opcode = .parameter := by
      simp [Node.toControl, hopcode]
    rw [hopcode] at hmemory hatomic hauxiliary hframe hobject
    rw [hcontrol]
    have hoperands : noOperands f.nodes[index] := by
      apply hparameters
      exact List.mem_take_iff_getElem.mpr ⟨index, by omega, rfl⟩
    simp only [hp, if_true, require_bind_eq_ok, pure_eq_ok]
    have hnone : ¬ (f.nodes[index]).auxiliary.valid := by simpa using hauxiliary
    refine ⟨hmemory, hatomic, .inr hnone, hframe, hobject, ?_,
      ⟨rfl, himm, hoperands, hcall⟩, ?_, True.intro⟩
    · simp [onlyBlock, hp]
    · rintro ⟨-, hwrong⟩
      rcases hwrong with hwrong | hwrong
      · exact hwrong htype
      · exact hwrong hscalar
  · obtain ⟨o, hopcode, -⟩ := (verified.node index _ hn).operation (by omega)
    have hcontrol : (f.nodes[index]).toControl.opcode = .op o := by
      simp [Node.toControl, hopcode]
    rw [hopcode] at hmemory hatomic hauxiliary hframe hobject
    rw [hcontrol]
    simp only [hp, if_false, require_bind_eq_ok, pure_eq_ok]
    refine ⟨hmemory, hatomic, ?_, hframe, hobject, rfl, True.intro⟩
    rcases hauxiliary with hcas | hnone
    · left
      simpa using hcas
    · exact .inr hnone

/-- The only block owns every node. -/
lemma verifyOwnership_toControlFlow (verified : f.Verified)
    (hnodes : f.nodes.length ≤ kInvalidIndex.toNat)
    (hparameters : ∀ n ∈ f.nodes.take f.parameterCount, noOperands n) :
    f.toControlFlow.verifyOwnership = .ok (f.ownersUpTo f.nodes.length) := by
  have hloop : foldExcept (f.toControlFlow.verifyOwner 0 f.onlyBlock) 0 f.onlyBlock.instructions
      (f.ownersUpTo 0) = .ok (f.ownersUpTo f.nodes.length) := by
    have hlength : f.onlyBlock.instructions.length = f.nodes.length := by simp [onlyBlock]
    have hend : f.ownersUpTo f.nodes.length = f.ownersUpTo (0 + f.onlyBlock.instructions.length) :=
      by rw [Nat.zero_add, hlength]
    rw [hend]
    apply foldExcept_eq_ok_of_steps f.ownersUpTo
    intro j v hv
    rw [Nat.zero_add]
    have hlt := (List.getElem?_eq_some_iff.mp hv).1
    rw [hlength] at hlt
    obtain rfl : Value.ofIndex j = v := by simpa [onlyBlock, hlt] using hv
    exact verifyOwner_toControlFlow verified hnodes hparameters hlt
  have hblock : f.toControlFlow.verifyBlockOwnership 0 f.onlyBlock (f.ownersUpTo 0) =
      .ok (f.ownersUpTo f.nodes.length) := by
    simp only [ControlFlowFunction.verifyBlockOwnership, require_bind_eq_ok]
    refine ⟨by simpa [onlyBlock] using verified.parameters, ?_⟩
    rw [hloop]
    rfl
  have hstart : (List.replicate f.toControlFlow.nodes.length none : Owners) = f.ownersUpTo 0 := by
    simp [toControlFlow, ownersUpTo, List.map_const']
  have hblocks : foldExcept f.toControlFlow.verifyBlockOwnership 0 f.toControlFlow.blocks
      (f.ownersUpTo 0) = .ok (f.ownersUpTo f.nodes.length) := by
    show foldExcept f.toControlFlow.verifyBlockOwnership 0 [f.onlyBlock] _ = _
    rw [foldExcept_cons_eq_ok]
    exact ⟨_, hblock, rfl⟩
  simp only [ControlFlowFunction.verifyOwnership, hstart, hblocks]
  show (do require _ _; pure _) = Except.ok _
  rw [require_bind_eq_ok]
  refine ⟨fun owner howner => ?_, rfl⟩
  obtain ⟨k, hk, rfl⟩ := List.mem_map.mp howner
  simp [List.mem_range.mp hk]

/-- The operand context of a position of the block is that of the node. -/
lemma availableType_toControlFlow (dominates : List (List Bool)) {index : Nat}
    (h : index ≤ f.nodes.length) :
    f.toControlFlow.availableType (f.ownersUpTo f.nodes.length) dominates 0 index =
      f.earlier index := by
  funext v
  have hlength : f.toControlFlow.nodes.length = f.nodes.length := by simp [toControlFlow]
  unfold ControlFlowFunction.availableType ControlFlowFunction.available earlier
  by_cases hv : v.valid ∧ v.index < f.nodes.length
  · have howner : (f.ownersUpTo f.nodes.length).getD v.index none = some (0, v.index) := by
      simp [ownersUpTo, List.getD, hv.2]
    have htype : f.nodes[v.index]?.map (·.type) = some (f.valueType v) := by
      simp [valueType, hv.1, hv.2]
    simp only [howner, if_true, toControlFlow_valueType, htype]
    by_cases hlt : v.index < index
    · simp [hv.1, hv.2, hlt, hlength]
    · simp [hlt]
  · have hnone : ¬ (v.valid ∧ v.index < index) := fun hw => hv ⟨hw.1, by omega⟩
    rw [if_neg hnone, if_neg]
    simp [hlength]
    tauto

/-- Parameters claim no side table. -/
lemma claimedAt_parameters (verified : f.Verified) {index : Nat} (h : index ≤ f.parameterCount) :
    f.claimedAt index = [] := by
  induction index with
  | zero => rfl
  | succ index ih =>
      have hlt : index < f.nodes.length := lt_of_lt_of_le h verified.parameters
      have hn := List.getElem?_eq_getElem hlt
      obtain ⟨hopcode, -⟩ := (verified.node index _ hn).parameter h
      rw [claimedAt_succ hn, hopcode]
      exact ih (by omega)

/-- A site unused in the function is unused in the graph. -/
lemma siteUnused_toControlFlow {index : Nat} {site : Word} (h : f.siteUnused index site) :
    f.toControlFlow.siteUnused index site := by
  intro previous hprevious
  simp only [toControlFlow, ← List.map_take] at hprevious
  obtain ⟨n, hn, rfl⟩ := List.mem_map.mp hprevious
  have hexit : n.toControl.opcode.isRuntimeExit = n.opcode.isRuntimeExit := by
    cases hopcode : n.opcode <;> simp [Node.toControl, hopcode] <;> rfl
  rw [hexit]
  exact h n hn

/-- The check of one instruction of the block. -/
lemma verifyBodyNode_toControlFlow (verified : f.Verified)
    (hnodes : f.nodes.length ≤ kInvalidIndex.toNat) (dominates : List (List Bool)) {index : Nat}
    (hindex : f.parameterCount ≤ index) (h : index < f.nodes.length) :
    f.toControlFlow.verifyBodyNode (f.ownersUpTo f.nodes.length) dominates 0 index
      (.ofIndex index) (f.claimedAt index) = .ok (f.claimedAt (index + 1)) := by
  have hn := List.getElem?_eq_getElem h
  have hid : (Value.ofIndex index).index = index := Value.index_ofIndex (by omega)
  have hnode : f.toControlFlow.nodes.getD index { opcode := .parameter } =
      (f.nodes[index]).toControl := by
    simp [toControlFlow, List.getD, h]
  obtain ⟨o, hopcode, htyped, hclaims, hsite⟩ := (verified.node index _ hn).operation hindex
  have hcontrol : (f.nodes[index]).toControl.opcode = .op o := by
    simp [Node.toControl, hopcode]
  simp only [ControlFlowFunction.verifyBodyNode, hid, hnode, hcontrol,
    availableType_toControlFlow dominates h.le]
  rw [ControlFlowFunction.verifyOperation_eq_ok]
  refine ⟨by cases o <;> exact htyped, ?_, fun hexit => siteUnused_toControlFlow (hsite hexit), ?_⟩
  · rintro ⟨table, k⟩ hclaim hclaimed
    have hclaims' : (f.expectedAt index).Claims o (f.nodes[index]).toControl := by
      cases o <;> exact hclaims
    have hfrom := ((mem_claimsOf hclaims').mp hclaim).1
    have hbelow := (mem_claimedAt verified h.le).mp hclaimed
    omega
  · rw [claimedAt_succ hn, hopcode]

/-- The graph's verifier accepts the block of a verified function. -/
lemma verifyBlockBody_toControlFlow (verified : f.Verified)
    (hnodes : f.nodes.length ≤ kInvalidIndex.toNat) (dominates : List (List Bool)) :
    f.toControlFlow.verifyBlockBody (f.ownersUpTo f.nodes.length) dominates 0 f.onlyBlock
      ([], none) = .ok (f.claimedAt f.nodes.length, some f.returnType) := by
  have hparameters := verified.parameters
  have hlength : f.onlyBlock.parameters.length = f.parameterCount := by simp [onlyBlock]
  have hinstructions : f.onlyBlock.instructions.length = f.nodes.length := by simp [onlyBlock]
  have hloop : foldExcept (f.toControlFlow.verifyBodyNode (f.ownersUpTo f.nodes.length) dominates 0)
      f.parameterCount (f.onlyBlock.instructions.drop f.parameterCount) [] =
        .ok (f.claimedAt f.nodes.length) := by
    have hend : f.claimedAt f.nodes.length = f.claimedAt (f.parameterCount +
        (f.onlyBlock.instructions.drop f.parameterCount).length) := by
      rw [List.length_drop, hinstructions, Nat.add_sub_cancel' hparameters]
    rw [hend, ← claimedAt_parameters verified le_rfl]
    apply foldExcept_eq_ok_of_steps f.claimedAt
    intro j v hv
    rw [List.getElem?_drop] at hv
    have hlt := (List.getElem?_eq_some_iff.mp hv).1
    rw [hinstructions] at hlt
    obtain rfl : Value.ofIndex (f.parameterCount + j) = v := by simpa [onlyBlock, hlt] using hv
    exact verifyBodyNode_toControlFlow verified hnodes dominates (by omega) hlt
  have hreturn : f.earlier f.nodes.length f.returnValue = some f.returnType := by
    obtain ⟨hvalid, hlt⟩ := verified.returnValue
    simp [earlier, returnType, valueType, hvalid, hlt]
  have hterminator : f.toControlFlow.verifyTerminator (f.toControlFlow.availableType
      (f.ownersUpTo f.nodes.length) dominates 0 f.nodes.length) 0 (.ret f.returnValue) none =
        .ok (some f.returnType) := by
    rw [availableType_toControlFlow dominates le_rfl]
    simp only [ControlFlowFunction.verifyTerminator, require_bind_eq_ok, hreturn,
      toControlFlow_valueType]
    exact ⟨rfl, verified.returnType, by simp, rfl⟩
  simp only [ControlFlowFunction.verifyBlockBody, hlength, hinstructions, hloop]
  show (do
    let returnType ← f.toControlFlow.verifyTerminator _ 0 (.ret f.returnValue) none
    pure (f.claimedAt f.nodes.length, returnType)) = Except.ok _
  rw [hterminator]
  rfl

/-- **The graph of a verified function verifies**, if its parameters name no operands. -/
lemma verify_toControlFlow (verified : f.Verified)
    (hnodes : f.nodes.length ≤ kInvalidIndex.toNat)
    (hparameters : ∀ n ∈ f.nodes.take f.parameterCount, noOperands n) :
    f.toControlFlow.verify = .ok () := by
  obtain ⟨⟨hregions, hframes, hobjects, hcells, hcalls⟩, hscalar, hobject, hcall⟩ :=
    verified.tables
  simp only [ControlFlowFunction.verify, require_bind_eq_ok]
  refine ⟨⟨by simp [toControlFlow], rfl⟩, ?_, hregions, hframes, hscalar, hobjects, hobject,
    hcells, hcalls, hcall, ?_⟩
  · simp [toControlFlow, ControlFlowFunction.parameterCount, parameterCount]
  simp only [bind_eq_ok (x := ControlFlowFunction.verifyOwnership _), require_bind_eq_ok,
    bind_eq_ok (x := foldExcept _ _ _ _)]
  refine ⟨_, verifyOwnership_toControlFlow verified hnodes hparameters, ?_,
    (f.claimedAt f.nodes.length, some f.returnType), ?_, ?_⟩
  · intro reached hreached
    have hreachable : f.toControlFlow.reachable = [true] := rfl
    simpa [hreachable] using hreached
  · show foldExcept _ 0 [f.onlyBlock] _ = _
    rw [foldExcept_cons_eq_ok]
    exact ⟨_, verifyBlockBody_toControlFlow verified hnodes _, rfl⟩
  · simp only [forM_eq_ok, require_eq_ok]
    intro table _ k hk
    rw [mem_claimedAt verified le_rfl, verified.claimed]
    have hsize : k < f.claimTableSize table := List.mem_range.mp hk
    cases table <;> exact hsize

end Function

/-! ## Dispatches -/

/-- The texts in which the interpreters differ. -/
def differingTexts : List (String × String) :=
  [(Function.texts.fastCall, ControlFlowFunction.texts.fastCall),
   (Function.texts.guard, ControlFlowFunction.texts.guard),
   (Function.texts.safepoint, ControlFlowFunction.texts.safepoint)]

/-- Statuses with the same code and location, and the same text or one of the differing texts. -/
structure SameStatus (s t : Status) : Prop where
  code : s.code = t.code
  location : s.location = t.location
  message : s.message = t.message ∨ (s.message, t.message) ∈ differingTexts

lemma SameStatus.refl (s : Status) : SameStatus s s := ⟨rfl, rfl, .inl rfl⟩

namespace Function

variable {host : Host} {f : Function} {args : List Word}

/-- Two statuses that differ in one of the listed texts only are the same. -/
lemma differingStatus {code : StatusCode} {location : Nat} {message message' : String}
    (h : (message, message') ∈ differingTexts) :
    SameStatus ⟨code, message, location⟩ ⟨code, message', location⟩ :=
  ⟨rfl, rfl, .inr h⟩

/-- Stops at an exit with differing texts. -/
lemma stopAt_matches {α : Type} {reason : ExitReason} {code : StatusCode}
    {message message' : String} (h : (message, message') ∈ differingTexts) (site : Nat)
    (value : Word) {R : α → α → Prop} :
    Matches (stopAt reason code message site value : Exec α)
      (stopAt reason code message' site value : Exec α) SameStatus R :=
  Matches.bind Matches.modify fun _ _ _ => Matches.throw (differingStatus h)

/-- **One dispatch**: each operation has a branch in both interpreters, and the two branches do the
same. -/
lemma executeInstruction_matches {index : Nat} {n : Node} {o : Operation} (s : Values)
    (hn : f.nodes[index]? = some n) (hopcode : n.opcode = .op o)
    (hindex : index < kInvalidIndex.toNat) :
    Matches (f.executeNode host args index n s)
      (f.toControlFlow.executeInstruction host (.ofIndex index) s) SameStatus (· = ·) := by
  have hid : (Value.ofIndex index).index = index := Value.index_ofIndex hindex
  have hnode : f.toControlFlow.nodes.getD index { opcode := .parameter } = n.toControl := by
    simp [toControlFlow, List.getD, hn]
  have hop : n.toControl.opcode = .op o := by simp [Node.toControl, hopcode]
  have hrefl : ∀ x : Exec Values, Matches x x SameStatus (· = ·) :=
    fun x => Matches.refl SameStatus.refl
  -- where the texts agree the branches reduce to one computation, up to the names of the node
  unfold executeNode ControlFlowFunction.executeInstruction
  simp only [hid, hnode, hopcode, hop, toControlFlow_valueType]
  cases o with
  | binary o => cases o <;> exact hrefl _
  | unary o => cases o <;> exact hrefl _
  | memory o => cases o <;> exact hrefl _
  | guardWordNonzero =>
      show Matches (if (s.setWord index 0).word n.lhs = 0 then _ else pure (s.setWord index 0))
        (if ((s.setWord index 0).word n.lhs == 0) = true then
          stopAt .runtime .runtimeExit ControlFlowFunction.texts.guard n.immediate.toNat
            ((s.setWord index 0).word n.lhs)
          else pure (s.setWord index 0)) SameStatus (· = ·)
      simp only [beq_iff_eq]
      split
      · exact stopAt_matches (by decide) _ _
      · exact hrefl _
  | guardFloatNonzero =>
      show Matches (if host.float.equal ((s.setWord index 0).word n.lhs) 0 = true then _
          else pure (s.setWord index 0))
        (if host.float.equal ((s.setWord index 0).word n.lhs) 0 = true then
          stopAt .runtime .runtimeExit ControlFlowFunction.texts.guard n.immediate.toNat
            ((s.setWord index 0).word n.lhs)
          else pure (s.setWord index 0)) SameStatus (· = ·)
      split
      · exact stopAt_matches (by decide) _ _
      · exact hrefl _
  | fastCall =>
      apply Matches.bind Matches.get
      rintro m _ rfl
      rw [show n.toControl.immediate = n.immediate from rfl]
      cases m.context.bind fun context => context.fastCallOracles.getD n.immediate.toNat none with
      | none => 
          exact Matches.throw (differingStatus
            (show (Function.texts.fastCall, ControlFlowFunction.texts.fastCall) ∈ differingTexts by
              decide))
      | some oracle => exact hrefl _
  | safepoint =>
      apply Matches.bind Matches.get
      rintro m _ rfl
      by_cases hcontext : m.context.isNone = true
      · simp only [hcontext, if_true]
        exact hrefl _
      · simp only [hcontext]
        apply Matches.bind Matches.modify
        rintro _ _ -
        apply Matches.bind Matches.get
        rintro m' _ rfl
        by_cases hrequested : host.exitPollRequested m'.polls = true
        · simp only [hrequested, if_true]
          exact stopAt_matches (by decide) _ _
        · simp only [hrequested]
          exact hrefl _
  | storeFrame =>
      simp only [Values.word, hid]
      exact hrefl _
  | _ => exact hrefl _

/-! ## Runs -/

/-- Running two lists of nodes runs the second from where the first ended. -/
lemma executeNodes_append (ns rest : List Node) (index : Nat) (s : Values) :
    f.executeNodes host args index (ns ++ rest) s =
      f.executeNodes host args index ns s >>= f.executeNodes host args (index + ns.length) rest := by
  induction ns generalizing index s with
  | nil => simp [executeNodes]
  | cons n ns ih =>
      simp only [List.cons_append, executeNodes, bind_assoc, List.length_cons]
      congr 1
      funext s'
      rw [ih, Nat.add_right_comm index, ← Nat.add_assoc]

/-- The words of a run after its first parameters. -/
def loadArguments (args : List Word) (count : Nat) (s : Values) : Values :=
  (List.range count).foldl (fun s index => s.setWord index (args.getD index 0)) s

/-- The parameter nodes of a verified function load the arguments. -/
lemma executeNodes_parameters (verified : f.Verified) {count : Nat}
    (hcount : count ≤ f.parameterCount) (hbound : count ≤ 2 ^ 64) (s : Values) :
    f.executeNodes host args 0 (f.nodes.take count) s = pure (loadArguments args count s) := by
  induction count with
  | zero => rfl
  | succ count ih =>
      have hlt : count < f.nodes.length := lt_of_lt_of_le hcount verified.parameters
      have hn := List.getElem?_eq_getElem hlt
      obtain ⟨hopcode, himm, -⟩ := (verified.node count _ hn).parameter hcount
      have hindex : (f.nodes[count]).immediate.toNat = count := by
        rw [himm, BitVec.toNat_ofNat]
        apply Nat.mod_eq_of_lt
        omega
      rw [List.take_succ_eq_append_getElem hlt, executeNodes_append,
        ih (by omega) (by omega), pure_bind,
        List.length_take, Nat.min_eq_left hlt.le, Nat.zero_add]
      simp only [executeNodes, executeNode, hopcode, hindex, bind_pure]
      simp only [loadArguments, List.range_succ, List.foldl_append, List.foldl_cons, List.foldl_nil]

/-- The run of a verified function goes on behind its parameters. -/
lemma executeNodes_eq (verified : f.Verified) (hbound : f.parameterCount ≤ 2 ^ 64) (s : Values) :
    f.executeNodes host args 0 f.nodes s =
      f.executeNodes host args f.parameterCount (f.nodes.drop f.parameterCount)
        (loadArguments args f.parameterCount s) := by
  conv_lhs => rw [← List.take_append_drop f.parameterCount f.nodes]
  rw [executeNodes_append, executeNodes_parameters verified le_rfl hbound, pure_bind,
    List.length_take, Nat.min_eq_left verified.parameters, Nat.zero_add]

/-- The graph's entry block receives the arguments as the function does. -/
lemma assignArguments_eq (verified : f.Verified) (hnodes : f.nodes.length ≤ kInvalidIndex.toNat)
    (s : Values) :
    f.toControlFlow.assignArguments args s = loadArguments args f.parameterCount s := by
  simp only [ControlFlowFunction.assignArguments, toControlFlow, loadArguments]
  simp only [show (Block.ofIndex 0).index = 0 from rfl, List.getD_cons_zero, List.length_map,
    List.length_range]
  apply List.foldl_ext
  intro s index hindex
  rw [List.mem_range] at hindex
  have hparameters := verified.parameters
  have hget : ((List.range f.parameterCount).map Value.ofIndex).getD index .invalid =
      Value.ofIndex index := by
    simp [List.getD, hindex]
  rw [hget, Value.index_ofIndex (by omega)]

/-- **Run lemma**: the nodes after the parameters, as nodes and as instructions. -/
lemma executeNodes_matches (verified : f.Verified)
    (hnodes : f.nodes.length ≤ kInvalidIndex.toNat) {ns : List Node} {index : Nat}
    (hindex : f.parameterCount ≤ index) (hns : f.nodes.drop index = ns) (s : Values) :
    Matches (f.executeNodes host args index ns s)
      (f.toControlFlow.executeInstructions host
        (((List.range f.nodes.length).map Value.ofIndex).drop index) s) SameStatus (· = ·) := by
  induction ns generalizing index s with
  | nil =>
      have hlength := List.drop_eq_nil_iff.mp hns
      rw [List.drop_eq_nil_iff.mpr (by simpa using hlength)]
      exact Matches.pure rfl
  | cons n ns ih =>
      have hn : f.nodes[index]? = some n := by
        have := congrArg (·[0]?) hns
        simpa using this
      have hrest : f.nodes.drop (index + 1) = ns := by
        have := congrArg List.tail hns
        simpa [List.tail_drop] using this
      have hlt := (List.getElem?_eq_some_iff.mp hn).1
      have hinstructions : ((List.range f.nodes.length).map Value.ofIndex).drop index =
          Value.ofIndex index ::
            ((List.range f.nodes.length).map Value.ofIndex).drop (index + 1) := by
        rw [List.drop_eq_getElem_cons (by simpa using hlt)]
        simp
      obtain ⟨o, hopcode, -⟩ := (verified.node index n hn).operation hindex
      rw [hinstructions]
      refine Matches.bind (executeInstruction_matches s hn hopcode (by omega)) ?_
      rintro s' _ rfl
      exact ih (by omega) hrest s'

/-- The graph writes to the same trusted objects. -/
lemma toControlFlow_writable : trustedObjectWritable (· == .op .storeObject) f.toControlFlow.nodes
      f.toControlFlow.trustedObjects.length =
    trustedObjectWritable (· == .op .storeObject) f.nodes f.trustedObjects.length := by
  unfold trustedObjectWritable
  simp only [toControlFlow, List.foldl_map]
  congr 1
  funext writable n
  have hopcode : (n.toControl.opcode == .op .storeObject) = (n.opcode == .op .storeObject) := by
    cases h : n.opcode <;> simp [Node.toControl, h]
  simp only [hopcode]
  rfl

/-- The only block returns. -/
lemma executeBlocks_toControlFlow (budget : Nat) (s : Values) :
    f.toControlFlow.executeBlocks host (budget + 1) f.toControlFlow.entryBlock s = (do
      let s ← f.toControlFlow.executeInstructions host
        (((List.range f.nodes.length).map Value.ofIndex).drop f.parameterCount) s
      pure (s.word f.returnValue)) := by
  have hparameters : ((List.range f.parameterCount).map Value.ofIndex).length =
      f.parameterCount := by simp
  conv_rhs => rw [← hparameters]
  rfl

/-- The runs of a function and of its graph. -/
lemma interpret_matches (hverify : f.verify = .ok ()) (hgraph : f.toControlFlow.verify = .ok ())
    (hnodes : f.nodes.length ≤ kInvalidIndex.toNat) (host : Host) (args : List Word) {budget : Nat}
    (hbudget : 0 < budget) :
    Matches (f.interpret host args) (f.toControlFlow.interpret host args budget) SameStatus
      (· = ·) := by
  have verified := verify_eq_ok.mp hverify
  have hrefl : ∀ {α : Type} (x : Exec α), Matches x x SameStatus (· = ·) :=
    fun x => Matches.refl SameStatus.refl
  unfold interpret ControlFlowFunction.interpret
  rw [hverify, hgraph]
  refine Matches.bind (hrefl _) fun _ _ _ => ?_
  refine Matches.bind (hrefl _) fun _ _ _ => ?_
  obtain ⟨budget, rfl⟩ : ∃ b, budget = b + 1 := ⟨budget - 1, by omega⟩
  have hpositive : checked (require (budget + 1 ≠ 0) ({ code := .invalidArgument, message :=
      "control-flow execution budget must be positive" } : Status)) = pure () := by
    simp [require, checked]
  rw [hpositive, pure_bind]
  refine Matches.bind Matches.modify fun _ _ _ => ?_
  refine Matches.bind Matches.get ?_
  rintro m _ rfl
  rw [toControlFlow_writable]
  refine Matches.bind (hrefl _) fun _ _ _ => ?_
  refine Matches.bind Matches.modify fun _ _ _ => ?_
  rw [assignArguments_eq verified hnodes]
  have hbound : f.parameterCount ≤ 2 ^ 64 := by
    have hindices : kInvalidIndex.toNat < 2 ^ 64 := by decide
    have hparameters := verified.parameters
    omega
  rw [executeNodes_eq verified hbound]
  have hlength : f.toControlFlow.nodes.length = f.nodes.length := by simp [toControlFlow]
  rw [hlength, executeBlocks_toControlFlow]
  refine Matches.bind (executeNodes_matches verified hnodes le_rfl rfl _) ?_
  rintro s _ rfl
  exact Matches.pure rfl

end Function

/-! ## Agreement -/

/-- **The interpreters agree**: the graph of a verified function whose parameters name no operands
verifies, and with a positive budget both interpreters return the same value, or stop with the same
code and location, and leave the same machine. Only the texts of a missing oracle, of a guard and
of a safepoint differ. -/
theorem interpreters_agree (f : Function) (hverify : f.verify = .ok ())
    (hnodes : f.nodes.length ≤ kInvalidIndex.toNat)
    (hparameters : ∀ n ∈ f.nodes.take f.parameterCount, noOperands n) :
    f.toControlFlow.verify = .ok () ∧
      ∀ (host : Host) (args : List Word) (budget : Nat), 0 < budget →
        Matches (f.interpret host args) (f.toControlFlow.interpret host args budget) SameStatus
          (· = ·) := by
  have hgraph := Function.verify_toControlFlow (Function.verify_eq_ok.mp hverify) hnodes hparameters
  exact ⟨hgraph, fun host args budget hbudget =>
    Function.interpret_matches hverify hgraph hnodes host args hbudget⟩

/-- Returns its argument, if it is not zero. -/
def guardSample : Function where
  parameterTypes := [.word]
  nodes :=
    [{ opcode := .parameter },
     { opcode := .op .guardWordNonzero, lhs := .ofIndex 0, immediate := 7 }]
  returnValue := .ofIndex 0

/-- A verified function with a guard and a verified graph of it return the same word. -/
theorem interpreters_agree_sample :
    guardSample.toControlFlow.verify = .ok () ∧
      ∃ m, guardSample.interpret sampleHost [3] {} = .ok 3 m ∧
        guardSample.toControlFlow.interpret sampleHost [3] 1 {} = .ok 3 m := by
  obtain ⟨hgraph, hruns⟩ :=
    interpreters_agree guardSample (by decide) (by decide) (by decide)
  refine ⟨hgraph, _, rfl, ?_⟩
  have hsame := hruns sampleHost [3] 1 (by decide) {}
  cases hrun : guardSample.toControlFlow.interpret sampleHost [3] 1 {} with
  | ok result m =>
      rw [hrun] at hsame
      obtain ⟨rfl, rfl⟩ := hsame
      rfl
  | error status m =>
      rw [hrun] at hsame
      exact hsame.elim

/-- A parameter that names an operand, which a package may contain. -/
def operandSample : Function where
  parameterTypes := [.word]
  nodes := [{ opcode := .parameter, lhs := .ofIndex 0 }]
  returnValue := .ofIndex 0

/-- The texts of a firing guard differ; and the graph verifier rejects a parameter that names an
operand, which the straight-line verifier accepts. -/
theorem interpreters_differ :
    (guardSample.verify = .ok () ∧ ∃ s t m,
      guardSample.interpret sampleHost [0] {} = .error s m ∧
        guardSample.toControlFlow.interpret sampleHost [0] 1 {} = .error t m ∧ s ≠ t) ∧
    operandSample.verify = .ok () ∧ operandSample.toControlFlow.verify ≠ .ok () :=
  ⟨⟨by decide, _, _, _, rfl, rfl, by decide⟩, by decide, by decide⟩

end UniJit.Ir
