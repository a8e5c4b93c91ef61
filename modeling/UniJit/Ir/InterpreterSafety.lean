import Mathlib.Data.BitVec
import UniJit.Ir.ControlFlowInterpreter
import UniJit.Ir.Dominance

/-!
# Verified functions are safe to interpret

No run of a verified function meets a `Fault`: every operand that it reads was assigned before, at
the type the reader expects, and every index it uses exists.

The argument is one for both interpreters. `Holds Γ cells` says that the values an operand
context allows have been assigned at their types; `runOperation_ensures` shows that a node that is
well typed over `Γ` then runs without a fault. What remains is that the context of each position
holds when a run arrives there. In a straight line the context grows node by node. In a graph
the context of a position consists of the earlier values of its block and the values of the blocks
that dominate it; the run has passed through those (`Passed`), because the dominator matrix
satisfies its equations (`dominates_edge`).
-/

namespace UniJit.Ir

open UniJit.Lib UniJit.Runtime

variable {Op : Type}

/-- A run stopped with a status of the source. -/
def Stop.isStatus : Stop → Prop
  | .status _ => True
  | .fault _ => False

/-- The values that an operand context allows are assigned, at their types. -/
def Holds (Γ : Value → Option ValueType) (cells : Cells) : Prop :=
  ∀ v type, Γ v = some type →
    ∃ payload, cells[v.index]? = some (some ⟨type, payload⟩) ∧ payload.fits type

/-- A step that does not fault ensures what holds of its result. -/
lemma ofFault_ensures {α : Type} {x : Except Fault α} {Q : α → Prop} {a : α} (hx : x = .ok a)
    (ha : Q a) : Ensures (ofFault x) Stop.isStatus Q := by
  subst hx
  exact Ensures.pure ha

/-- A step that may be refused reaches no fault. -/
lemma ofStatus_ensures {α : Type} {x : Except Status α} {Q : α → Prop}
    (h : ∀ a, x = .ok a → Q a) : Ensures (ofStatus x) Stop.isStatus Q := by
  cases x with
  | ok a => exact Ensures.pure (h a rfl)
  | error e => exact fun _ => True.intro

/-- A usable operand can be read. -/
lemma readOperand_of_usable {Γ : Value → Option ValueType} {cells : Cells} (holds : Holds Γ cells)
    {v : Value} {expects : ValueType → Bool} (h : Usable Γ v expects) :
    ∃ payload, readOperand cells v expects = .ok payload ∧
      ∃ type, expects type ∧ payload.fits type := by
  obtain ⟨type, htype, hexpects⟩ := h
  obtain ⟨payload, hcell, hfits⟩ := holds v type htype
  exact ⟨payload, by simp [readOperand, hcell, hexpects], type, hexpects, hfits⟩

/-- Usable operands can be read. -/
lemma readOperands_of_usable {Γ : Value → Option ValueType} {cells : Cells} (holds : Holds Γ cells)
    {vs : List Value} {expects : List (ValueType → Bool)}
    (h : List.Forall₂ (Usable Γ) vs expects) :
    ∃ payloads, readOperands cells vs expects = .ok payloads ∧
      List.Forall₂ (fun expects payload => ∃ type, expects type ∧ payload.fits type)
        expects payloads := by
  induction h with
  | nil => exact ⟨[], rfl, .nil⟩
  | cons hfirst hrest ih =>
      obtain ⟨payload, hread, hfits⟩ := readOperand_of_usable holds hfirst
      obtain ⟨payloads, hreads, hall⟩ := ih
      refine ⟨payload :: payloads, ?_, .cons hfits hall⟩
      simp only [readOperands, hread, hreads]
      rfl

/-- The result of an instruction is of the kind that its declared type denotes. -/
lemma execute_fits (host : Host) (texts : Texts) {i : Instruction} (operands : List Payload)
    {type : ValueType} (h : i.yields type) :
    Ensures (i.execute host texts operands) (fun _ => True) fun payload => payload.fits type := by
  have hscalar : ∀ (x : Exec Word), isScalarValueType type →
      Ensures (Payload.scalar <$> x) (fun _ => True) fun payload => payload.fits type :=
    fun x hs => Ensures.map (Ensures.mono Ensures.trivial (fun _ h => h) fun _ _ => hs)
  have hvector : ∀ (x : Exec Vector128), isVectorValueType type →
      Ensures (Payload.vector <$> x) (fun _ => True) fun payload => payload.fits type :=
    fun x hv => Ensures.map (Ensures.mono Ensures.trivial (fun _ h => h) fun _ _ => hv)
  have hword : type = .word → isScalarValueType type := by rintro rfl; rfl
  cases i with
  | pure i => exact Ensures.pure (PureInstruction.evaluate_fits h)
  | effect i =>
      simp only [Instruction.yields] at h
      cases i with
      | guardNonzero float site =>
          simp only [EffectInstruction.yields, beq_iff_eq] at h
          simp only [Instruction.execute, EffectInstruction.execute]
          split_ifs
          · exact fun _ => True.intro
          · exact Ensures.pure (hword h)
          · exact fun _ => True.intro
          · exact Ensures.pure (hword h)
      | call helper count => exact hscalar _ h
      | fastCall target descriptor =>
          simp only [EffectInstruction.yields, Bool.and_eq_true] at h
          simp only [Instruction.execute, EffectInstruction.execute]
          refine Ensures.bind Ensures.trivial fun m _ => ?_
          split
          · exact fun _ => True.intro
          · exact hscalar _ h.2
      | safepoint site =>
          simp only [EffectInstruction.yields, beq_iff_eq] at h
          exact hscalar _ (hword h)
      | memory o access moved site =>
          simp only [EffectInstruction.yields, Bool.and_eq_true, beq_iff_eq] at h
          obtain ⟨htype, hlanes⟩ := h
          cases o with
          | loadWord | storeWord | loadFloat | storeFloat =>
              exact hscalar _ (by rw [htype]; rfl)
          | loadVector | storeVector =>
              refine hvector _ ?_
              rw [htype]
              exact PureInstruction.isVector_of_lanes hlanes
      | atomic o access site =>
          simp only [EffectInstruction.yields, beq_iff_eq] at h
          exact hscalar _ (hword h)
      | atomicFence order =>
          simp only [EffectInstruction.yields, beq_iff_eq] at h
          exact Ensures.pure (hword h)
      | loadFrame slot slotType =>
          simp only [EffectInstruction.yields, Bool.and_eq_true, beq_iff_eq] at h
          refine Ensures.bind Ensures.trivial fun m _ => Ensures.pure ?_
          rw [h.1]
          exact h.2
      | storeFrame slot slotType =>
          simp only [EffectInstruction.yields, Bool.and_eq_true, beq_iff_eq] at h
          refine Ensures.bind Ensures.trivial fun m _ => Ensures.pure ?_
          rw [h.1]
          exact h.2
      | loadObject slot byteOffset => exact hscalar _ h
      | storeObject slot byteOffset stored =>
          simp only [EffectInstruction.yields, Bool.and_eq_true, beq_iff_eq] at h
          exact hscalar _ (by rw [h.1]; exact h.2)

/-- **One instruction**: a node that is well typed over a context that holds runs without a fault,
and assigns a value of its declared type. -/
lemma runOperation_ensures (host : Host) (texts : Texts) {valueType : Value → ValueType}
    {t : SideTables} {Γ : Value → Option ValueType} {n : NodeOf Op} {o : Operation}
    (sound : t.Sound) (agrees : ∀ v type, Γ v = some type → valueType v = type)
    (typed : Typed t Γ o n) {cells : Cells} (holds : Holds Γ cells) {index : Nat}
    (hindex : index < cells.length) :
    Ensures (runOperation host texts valueType t n o index cells) Stop.isStatus fun cells' =>
      ∃ payload, payload.fits n.type ∧ cells' = cells.set index (some ⟨n.type, payload⟩) := by
  obtain ⟨i, hresolve, hyields, husable⟩ := typed.resolve sound agrees
  obtain ⟨payloads, hread, -⟩ := readOperands_of_usable holds husable
  unfold runOperation
  apply Ensures.bind (ofFault_ensures (Q := (· = i)) hresolve rfl)
  rintro _ rfl
  apply Ensures.bind (ofFault_ensures (Q := (· = payloads)) hread rfl)
  rintro operands rfl
  have hexecute := (execute_fits host texts operands hyields).mono
    (F := fun s => Stop.isStatus (.status s)) (fun _ _ => True.intro) fun _ h => h
  apply Ensures.bind (Ensures.adaptExcept hexecute)
  intro payload hfits
  refine ofFault_ensures (a := cells.set index (some ⟨n.type, payload⟩)) ?_
    ⟨payload, hfits, rfl⟩
  rw [require_bind_eq_ok, writeCell, require_bind_eq_ok, require_bind_eq_ok]
  exact ⟨hyields, hindex, hfits, rfl⟩

/-! ## Straight lines -/

namespace Function

variable {f : Function} {args : List Word}

/-- The type of an earlier value is its node's type. -/
lemma earlier_agrees {index : Nat} {v : Value} {type : ValueType}
    (h : f.earlier index v = some type) : f.valueType v = type := by
  unfold earlier at h
  split_ifs at h with hv
  simp [valueType, hv.1, h]

/-- The nodes before `index` have been assigned. -/
def Assigned (f : Function) (index : Nat) (cells : Cells) : Prop :=
  cells.length = f.nodes.length ∧ ∀ k n, k < index → f.nodes[k]? = some n →
    ∃ payload, cells[k]? = some (some ⟨n.type, payload⟩) ∧ payload.fits n.type

/-- Assigned cells hold every earlier value under its type. -/
lemma Assigned.holds {index : Nat} {cells : Cells} (h : f.Assigned index cells) :
    Holds (f.earlier index) cells := by
  intro v type htype
  unfold earlier at htype
  split_ifs at htype with hv
  obtain ⟨n, hn, rfl⟩ := Option.map_eq_some_iff.mp htype
  exact h.2 v.index n hv.2 hn

/-- Writing a fitting payload for a node assigns one cell more. -/
lemma Assigned.set {index : Nat} {n : Node} {cells : Cells} (h : f.Assigned index cells)
    (hn : f.nodes[index]? = some n) {payload : Payload} (hfits : payload.fits n.type) :
    f.Assigned (index + 1) (cells.set index (some ⟨n.type, payload⟩)) := by
  have hlt : index < cells.length := by
    rw [h.1]
    exact (List.getElem?_eq_some_iff.mp hn).1
  refine ⟨by rw [List.length_set]; exact h.1, fun k n' hk hn' => ?_⟩
  by_cases hkey : index = k
  · subst hkey
    obtain rfl := Option.some.inj (hn.symm.trans hn')
    exact ⟨payload, by rw [List.getElem?_set_self hlt], hfits⟩
  · rw [List.getElem?_set_ne hkey]
    exact h.2 k n' (by omega) hn'

/-- One node of a verified function runs without a fault. -/
lemma runNode_ensures (host : Host) (verified : f.Verified)
    (hargs : args.length = f.parameterCount) {index : Nat} {n : Node} {cells : Cells}
    (hn : f.nodes[index]? = some n) (assigned : f.Assigned index cells) :
    Ensures (f.runNode host args index n cells) Stop.isStatus (f.Assigned (index + 1)) := by
  have hlt : index < cells.length := by
    rw [assigned.1]
    exact (List.getElem?_eq_some_iff.mp hn).1
  have hnode := verified.node index n hn
  unfold runNode
  by_cases hparameter : index < f.parameterCount
  · obtain ⟨hopcode, himm, -, hscalar, -⟩ := hnode.parameter hparameter
    have hrange : n.immediate.toNat < args.length := by
      rw [himm, BitVec.toNat_ofNat, hargs]
      exact lt_of_le_of_lt (Nat.mod_le _ _) hparameter
    rw [hopcode]
    have hfits : (Payload.scalar args[n.immediate.toNat]).fits n.type := hscalar
    refine ofFault_ensures ?_ (assigned.set hn hfits)
    simp only [List.getElem?_eq_getElem hrange, orFault_some, bind_eq_ok]
    refine ⟨_, rfl, ?_⟩
    rw [writeCell, require_bind_eq_ok, require_bind_eq_ok]
    exact ⟨hlt, hscalar, rfl⟩
  · obtain ⟨o, hopcode, htyped, -⟩ := hnode.operation (by omega)
    rw [hopcode]
    refine (runOperation_ensures host texts verified.tables (fun v type => earlier_agrees) htyped
      assigned.holds hlt).mono (fun _ h => h) ?_
    rintro _ ⟨payload, hfits, rfl⟩
    exact assigned.set hn hfits

/-- The nodes of a verified function run without a fault. -/
lemma runNodes_ensures (host : Host) (verified : f.Verified)
    (hargs : args.length = f.parameterCount) {ns : List Node} {index : Nat} {cells : Cells}
    (hns : f.nodes.drop index = ns) (assigned : f.Assigned index cells) :
    Ensures (f.runNodes host args index ns cells) Stop.isStatus
      (f.Assigned f.nodes.length) := by
  induction ns generalizing index cells with
  | nil =>
      refine Ensures.pure ⟨assigned.1, fun k n hk hn => assigned.2 k n ?_ hn⟩
      have := List.drop_eq_nil_iff.mp hns
      omega
  | cons n ns ih =>
      have hn : f.nodes[index]? = some n := by
        have := congrArg (·[0]?) hns
        simpa using this
      have hrest : f.nodes.drop (index + 1) = ns := by
        have := congrArg List.tail hns
        simpa [List.tail_drop] using this
      exact Ensures.bind (runNode_ensures host verified hargs hn assigned)
        fun cells' hcells => ih hrest hcells

/-- **Straight-line safety**. -/
lemma evaluate_ensures (host : Host) (hargs : args.length = f.parameterCount) :
    Ensures (f.evaluate host args) Stop.isStatus fun _ => True := by
  unfold evaluate
  apply Ensures.bind (ofStatus_ensures (Q := fun _ => f.verify = .ok ()) fun _ h => h)
  intro _ hverify
  have verified := verify_eq_ok.mp hverify
  apply Ensures.bind (ofStatus_ensures (Q := fun _ => True) fun _ _ => True.intro)
  intro _ _
  apply Ensures.bind (P := fun _ => True) (fun _ => True.intro)
  intro _ _
  apply Ensures.bind (P := fun _ => True) (fun _ => True.intro)
  intro m _
  apply Ensures.bind (ofStatus_ensures (Q := fun _ => True) fun _ _ => True.intro)
  intro _ _
  unfold run
  apply Ensures.bind (P := fun _ => True) (fun _ => True.intro)
  intro _ _
  have start : f.Assigned 0 (List.replicate f.nodes.length none) :=
    ⟨by simp, fun k n hk => absurd hk (Nat.not_lt_zero k)⟩
  apply Ensures.bind (runNodes_ensures host verified hargs (by simp) start)
  intro cells assigned
  obtain ⟨hvalid, hlt⟩ := verified.returnValue
  have hn := List.getElem?_eq_getElem hlt
  obtain ⟨payload, hcell, -⟩ := assigned.2 _ _ hlt hn
  have hscalar : isScalarValueType (f.nodes[f.returnValue.index]).type := by
    have := verified.returnType
    rwa [returnType, valueType, if_pos hvalid, hn] at this
  refine Ensures.bind (ofFault_ensures (Q := fun _ => True) (a := payload) ?_ True.intro)
    fun _ _ => Ensures.pure True.intro
  simp only [readOperand, hcell, hscalar, if_true]

end Function

/-! ## Graphs -/

namespace ControlFlowFunction

variable {f : ControlFlowFunction} {args : List Word}

lemma valueType_of_node {v : Value} {n : ControlNode} (hvalid : v.valid)
    (hn : f.nodes[v.index]? = some n) : f.valueType v = n.type := by
  simp [valueType, hvalid, hn]

/-- There is a cell for each node, and the assigned cells have their nodes' types. -/
structure TypedCells (f : ControlFlowFunction) (cells : Cells) : Prop where
  length : cells.length = f.nodes.length
  typed : ∀ (k : Nat) (n : ControlNode) (cell : Cell), f.nodes[k]? = some n →
    cells[k]? = some (some cell) → cell.type = n.type ∧ cell.payload.fits n.type

/-- The state of a run at position `i` of block `b`: the earlier values of the block and those of
the blocks that dominate it are assigned. -/
structure Passed (f : ControlFlowFunction) (b i : Nat) (cells : Cells) : Prop
    extends f.TypedCells cells where
  assigned : ∀ k c j, f.DefinedAt k c j → (c = b ∧ j < i ∨ c ≠ b ∧ f.Dominates c b) →
    ∃ cell, cells[k]? = some (some cell)

/-- The operand context of a position holds when a run arrives there. -/
lemma Passed.holds (verified : f.Verified) {b i : Nat} {cells : Cells} (h : f.Passed b i cells) :
    Holds (f.context b i) cells := by
  intro v type htype
  have hvalue := availableType_eq_some htype
  unfold context availableType available at htype
  split_ifs at htype with havailable
  simp only [Bool.and_eq_true, decide_eq_true_eq] at havailable
  obtain ⟨⟨hvalid, hlt⟩, hdefined⟩ := havailable
  have hn := List.getElem?_eq_getElem hlt
  have hassigned : ∃ cell, cells[v.index]? = some (some cell) := by
    cases howner : f.owners.getD v.index none with
    | none =>
        rw [howner] at hdefined
        exact absurd hdefined Bool.false_ne_true
    | some position =>
        obtain ⟨c, j⟩ := position
        have hget : f.owners[v.index]? = some (some (c, j)) := by
          unfold List.getD at howner
          cases hcell : f.owners[v.index]? with
          | none => simp [hcell] at howner
          | some owner => simpa [hcell] using howner
        rw [howner] at hdefined
        apply h.assigned v.index c j ((verified.owners _ _ _).mp hget)
        simp only at hdefined
        split_ifs at hdefined with hsame
        · exact .inl ⟨hsame, by simpa using hdefined⟩
        · exact .inr ⟨hsame, hdefined⟩
  obtain ⟨⟨cellType, payload⟩, hcell⟩ := hassigned
  obtain ⟨rfl, hfits⟩ := h.typed v.index _ _ hn hcell
  rw [valueType_of_node hvalid hn] at hvalue
  subst hvalue
  exact ⟨payload, hcell, hfits⟩

/-- Assigning a value of its declared type. -/
lemma TypedCells.set {cells : Cells} (h : f.TypedCells cells) {index : Nat} {n : ControlNode}
    (hn : f.nodes[index]? = some n) {payload : Payload} (hfits : payload.fits n.type) :
    f.TypedCells (cells.set index (some ⟨n.type, payload⟩)) := by
  refine ⟨by rw [List.length_set, h.length], fun k n' cell hn' hcell => ?_⟩
  by_cases hk : index = k
  · subst hk
    obtain rfl := Option.some.inj (hn.symm.trans hn')
    have hlt : index < cells.length := by
      rw [h.length]
      exact (List.getElem?_eq_some_iff.mp hn).1
    rw [List.getElem?_set_self hlt] at hcell
    obtain rfl := Option.some.inj (Option.some.inj hcell)
    exact ⟨rfl, hfits⟩
  · rw [List.getElem?_set_ne hk] at hcell
    exact h.typed k n' cell hn' hcell

/-- Writing a cell leaves assigned cells assigned. -/
lemma assigned_set {cells : Cells} {index k : Nat} {cell : Cell}
    (h : index = k ∧ index < cells.length ∨ ∃ old, cells[k]? = some (some old)) :
    ∃ new, (cells.set index (some cell))[k]? = some (some new) := by
  by_cases hk : index = k
  · subst hk
    rcases h with ⟨-, hlt⟩ | ⟨old, hold⟩
    · exact ⟨cell, by rw [List.getElem?_set_self hlt]⟩
    · exact ⟨cell, by rw [List.getElem?_set_self (List.getElem?_eq_some_iff.mp hold).1]⟩
  · rcases h with ⟨rfl, -⟩ | ⟨old, hold⟩
    · exact absurd rfl hk
    · exact ⟨old, by rw [List.getElem?_set_ne hk, hold]⟩

/-- One instruction of a verified graph runs without a fault. -/
lemma runInstruction_ensures (host : Host) (verified : f.Verified) {b i : Nat} {block : BasicBlock}
    {v : Value} {cells : Cells} (hblock : f.blocks[b]? = some block)
    (hi : block.parameters.length ≤ i) (hv : block.instructions[i]? = some v)
    (h : f.Passed b i cells) :
    Ensures (f.runInstruction host v cells) Stop.isStatus (f.Passed b (i + 1)) := by
  obtain ⟨n, o, hnode⟩ := verified.node hblock hi hv
  have hlt : v.index < cells.length := by
    rw [h.length]
    exact (List.getElem?_eq_some_iff.mp hnode.node).1
  unfold runInstruction
  apply Ensures.bind (ofFault_ensures (Q := (· = n)) (by rw [hnode.node, orFault_some]) rfl)
  rintro _ rfl
  rw [hnode.opcode]
  apply (runOperation_ensures host texts verified.tables (fun _ _ => availableType_eq_some)
    hnode.typed (h.holds verified) hlt).mono (fun _ h => h)
  rintro _ ⟨payload, hfits, rfl⟩
  refine ⟨h.toTypedCells.set hnode.node hfits, ?_⟩
  intro k c j hdefined hposition
  apply assigned_set
  by_cases hself : c = b ∧ j = i
  · obtain ⟨rfl, rfl⟩ := hself
    exact .inl ⟨DefinedAt.inj ⟨block, v, hblock, hv, rfl⟩ hdefined, hlt⟩
  · right
    apply h.assigned k c j hdefined
    rcases hposition with ⟨hb, hj⟩ | hdominates
    · left
      exact ⟨hb, by omega⟩
    · exact .inr hdominates

/-- The body of a block of a verified graph runs without a fault. -/
lemma runInstructions_ensures (host : Host) (verified : f.Verified) {b : Nat} {block : BasicBlock}
    (hblock : f.blocks[b]? = some block) {vs : List Value} {i : Nat} {cells : Cells}
    (hi : block.parameters.length ≤ i) (hvs : block.instructions.drop i = vs)
    (h : f.Passed b i cells) :
    Ensures (f.runInstructions host vs cells) Stop.isStatus
      (f.Passed b block.instructions.length) := by
  induction vs generalizing i cells with
  | nil =>
      have hlength := List.drop_eq_nil_iff.mp hvs
      refine Ensures.pure ⟨h.toTypedCells, fun k c j hdefined hposition => ?_⟩
      apply h.assigned k c j hdefined
      rcases hposition with ⟨hb, hj⟩ | hdominates
      · exact .inl ⟨hb, by omega⟩
      · exact .inr hdominates
  | cons v vs ih =>
      have hv : block.instructions[i]? = some v := by
        have := congrArg (·[0]?) hvs
        simpa using this
      have hrest : block.instructions.drop (i + 1) = vs := by
        have := congrArg List.tail hvs
        simpa [List.tail_drop] using this
      exact Ensures.bind (runInstruction_ensures host verified hblock hi hv h)
        fun cells' hcells => ih (by omega) hrest hcells

/-- Parameters can be assigned contents of their types. -/
lemma assignParameters_eq_ok {assignments : List (Value × Payload)} {cells : Cells}
    (htyped : f.TypedCells cells)
    (h : ∀ a ∈ assignments, f.validValue a.1 ∧ a.2.fits (f.valueType a.1)) :
    ∃ cells', f.assignParameters assignments cells = .ok cells' ∧ f.TypedCells cells' ∧
      ∀ k, (k ∈ assignments.map (·.1.index) ∨ ∃ old, cells[k]? = some (some old)) →
        ∃ new, cells'[k]? = some (some new) := by
  induction assignments generalizing cells with
  | nil =>
      exact ⟨cells, rfl, htyped, fun k hk => hk.resolve_left (by simp)⟩
  | cons a rest ih =>
      obtain ⟨parameter, payload⟩ := a
      obtain ⟨⟨hvalid, hlt⟩, hfits⟩ := h (parameter, payload) (by simp)
      have hn := List.getElem?_eq_getElem hlt
      have hlt' : parameter.index < cells.length := by rw [htyped.length]; exact hlt
      have htype := valueType_of_node hvalid hn
      have hset : writeCell cells parameter.index (f.valueType parameter) payload =
          .ok (cells.set parameter.index (some ⟨f.valueType parameter, payload⟩)) := by
        rw [writeCell, require_bind_eq_ok, require_bind_eq_ok]
        exact ⟨hlt', hfits, rfl⟩
      simp only at hfits hlt
      rw [htype] at hset hfits
      obtain ⟨cells', hrest, htyped', hassigned⟩ :=
        ih (htyped.set hn hfits) fun a ha => h a (by simp [ha])
      refine ⟨cells', ?_, htyped', fun k hk => hassigned k ?_⟩
      · rw [assignParameters, htype, hset]
        exact hrest
      · rcases hk with hk | hold
        · rw [List.map_cons, List.mem_cons] at hk
          rcases hk with rfl | hk
          · exact .inr (assigned_set (.inl ⟨rfl, hlt'⟩))
          · exact .inl hk
        · exact .inr (assigned_set (.inr hold))

/-- Pairing the parameters with payloads keeps the order of their indices. -/
lemma index_zip {parameters : List Value} {payloads : List Payload}
    (h : parameters.length ≤ payloads.length) :
    (parameters.zip payloads).map (·.1.index) = parameters.map (·.index) := by
  have hfst : (parameters.zip payloads).map Prod.fst = parameters := List.map_fst_zip h
  conv_rhs => rw [← hfst]
  rw [List.map_map]
  rfl

/-- The source of an edge is a predecessor of its target. -/
lemma mem_predecessors {b : Nat} {block : BasicBlock} {edge : ControlEdge}
    (hblock : f.blocks[b]? = some block) (hedge : edge ∈ block.terminator.edges) :
    b ∈ f.predecessors edge.target.index := by
  unfold predecessors
  refine List.mem_flatMap.mpr ⟨(block, b), ?_, List.mem_map.mpr ⟨edge, ?_, rfl⟩⟩
  · exact List.mem_iff_getElem?.mpr ⟨b, by simp [List.getElem?_zipIdx, hblock]⟩
  · simp [hedge]

/-- Following an edge of a verified graph leads to the start of its target. -/
lemma takeEdge_eq_ok (verified : f.Verified) {b : Nat} {block : BasicBlock}
    (hblock : f.blocks[b]? = some block) {edge : ControlEdge}
    (hedge : edge ∈ block.terminator.edges)
    (harguments : ∀ argument ∈ edge.arguments,
      (f.context b block.instructions.length argument).isSome)
    {cells : Cells} (h : f.Passed b block.instructions.length cells) :
    ∃ target cells', f.blocks[edge.target.index]? = some target ∧
      f.takeEdge edge cells = .ok cells' ∧
      f.Passed edge.target.index target.parameters.length cells' := by
  have hok := (verified.owned.block hblock).edge edge hedge
  obtain ⟨target, htarget⟩ : ∃ target, f.blocks[edge.target.index]? = some target :=
    ⟨_, List.getElem?_eq_getElem hok.valid.2⟩
  obtain ⟨hcount, htypes⟩ := hok.arguments target htarget
  have howned := verified.owned.block htarget
  have husable : List.Forall₂ (Usable (f.context b block.instructions.length)) edge.arguments
      (target.parameters.map fun parameter type => type == f.valueType parameter) := by
    rw [List.forall₂_map_right_iff, List.forall₂_iff_get]
    refine ⟨hcount, fun j hj hj' => ?_⟩
    simp only [List.get_eq_getElem]
    have hsome := harguments _ (List.getElem_mem hj)
    obtain ⟨-, htype⟩ := htypes j _ _ (List.getElem?_eq_getElem hj) (List.getElem?_eq_getElem hj')
    exact ⟨_, availableType_of_isSome hsome, by simp [htype]⟩
  obtain ⟨payloads, hread, hfits⟩ := readOperands_of_usable (h.holds verified) husable
  have hparameter : ∀ (j : Nat) parameter, target.parameters[j]? = some parameter →
      target.instructions[j]? = some parameter ∧ f.validValue parameter := by
    intro j parameter hj
    have hlt := (List.getElem?_eq_some_iff.mp hj).1
    have hlt' := lt_of_lt_of_le hlt howned.parameters
    obtain ⟨n, -, hnode⟩ := howned.instruction j _ (List.getElem?_eq_getElem hlt')
    have hsame := hj.symm.trans (hnode.parameter hlt).1
    rw [Option.some.inj hsame]
    exact ⟨List.getElem?_eq_getElem hlt', hnode.valid⟩
  rw [List.forall₂_map_left_iff] at hfits
  have hassignments : ∀ a ∈ target.parameters.zip payloads,
      f.validValue a.1 ∧ a.2.fits (f.valueType a.1) := by
    rintro ⟨parameter, payload⟩ ha
    obtain ⟨j, hj⟩ := List.mem_iff_getElem?.mp (List.of_mem_zip ha).1
    obtain ⟨type, htype, hfit⟩ := (List.forall₂_iff_zip.mp hfits).2 ha
    simp only [beq_iff_eq] at htype
    exact ⟨(hparameter j parameter hj).2, htype ▸ hfit⟩
  obtain ⟨cells', hassign, htyped, hassigned⟩ :=
    assignParameters_eq_ok h.toTypedCells hassignments
  refine ⟨target, cells', htarget, ?_, htyped, fun k c j hdefined hposition => ?_⟩
  · simp only [takeEdge, htarget, orFault_some, bind_eq_ok (x := Except.ok _)]
    refine ⟨target, rfl, ?_⟩
    rw [require_bind_eq_ok, hcount, List.take_length, hread]
    exact ⟨le_rfl, hassign⟩
  · apply hassigned
    rcases hposition with ⟨rfl, hj⟩ | ⟨hne, hdominates⟩
    · left
      obtain ⟨parameter, hparam⟩ : ∃ parameter, target.parameters[j]? = some parameter :=
        ⟨_, List.getElem?_eq_getElem hj⟩
      have hkey := DefinedAt.inj hdefined
        ⟨target, parameter, htarget, (hparameter j parameter hparam).1, rfl⟩
      rw [index_zip hfits.length_eq.le, hkey]
      exact List.mem_map_of_mem (List.mem_of_getElem? hparam)
    · right
      have hpos : 1 ≤ edge.target.index := Nat.one_le_iff_ne_zero.mpr hok.notEntry
      have hpredecessor : f.Dominates c b := by
        have := ((dominates_iff hpos hok.valid.2).mp hdominates).2.resolve_left hne
        exact this b (mem_predecessors hblock hedge)
      apply h.assigned k c j hdefined
      by_cases hcb : c = b
      · subst hcb
        obtain ⟨block', v, hblock', hv, -⟩ := hdefined
        obtain rfl := Option.some.inj (hblock.symm.trans hblock')
        exact .inl ⟨rfl, (List.getElem?_eq_some_iff.mp hv).1⟩
      · exact .inr ⟨hcb, hpredecessor⟩

/-- The terminator of a block of a verified graph returns a word or leads to one of its edges,
whose arguments are available. -/
lemma runTerminator_eq_ok (verified : f.Verified) {b : Nat} {block : BasicBlock}
    (hblock : f.blocks[b]? = some block) {cells : Cells}
    (h : f.Passed b block.instructions.length cells) :
    ∃ next, runTerminator block.terminator cells = .ok next ∧
      ∀ edge, next = .inr edge → edge ∈ block.terminator.edges ∧ ∀ argument ∈ edge.arguments,
        (f.context b block.instructions.length argument).isSome := by
  have htyped := verified.terminator hblock
  cases hterminator : block.terminator with
  | none => exact absurd hterminator (verified.owned.block hblock).terminated
  | ret v =>
      rw [hterminator] at htyped
      obtain ⟨payload, hread, -⟩ :=
        readOperand_of_usable (h.holds verified) (usable_of_any htyped)
      refine ⟨.inl payload.word, ?_, by simp⟩
      simp only [runTerminator, hread]
      rfl
  | jump edge =>
      rw [hterminator] at htyped
      refine ⟨.inr edge, rfl, ?_⟩
      rintro _ ⟨⟩
      exact ⟨by simp [ControlTerminator.edges], htyped⟩
  | branch condition trueEdge falseEdge =>
      rw [hterminator] at htyped
      obtain ⟨hcondition, htrue, hfalse⟩ := htyped
      obtain ⟨payload, hread, -⟩ := readOperand_of_usable (h.holds verified) (usable_eq hcondition)
      refine ⟨.inr (if payload.word ≠ 0 then trueEdge else falseEdge), ?_, ?_⟩
      · simp only [runTerminator, hread]
        rfl
      · rintro _ ⟨⟩
        split_ifs
        · exact ⟨by simp [ControlTerminator.edges], htrue⟩
        · exact ⟨by simp [ControlTerminator.edges], hfalse⟩

/-- **Run lemma**: from the start of a block whose dominators have been passed, a verified graph
runs without a fault, however many blocks it executes. -/
lemma runBlocks_ensures (host : Host) (verified : f.Verified) {budget : Nat} {current : Block}
    {block : BasicBlock} {cells : Cells} (hblock : f.blocks[current.index]? = some block)
    (h : f.Passed current.index block.parameters.length cells) :
    Ensures (f.runBlocks host budget current cells) Stop.isStatus fun _ => True := by
  induction budget generalizing current block cells with
  | zero => exact fun _ => True.intro
  | succ budget ih =>
      unfold runBlocks
      apply Ensures.bind (ofFault_ensures (Q := (· = block)) (by rw [hblock, orFault_some]) rfl)
      rintro block rfl
      apply Ensures.bind (runInstructions_ensures host verified hblock le_rfl rfl h)
      intro cells' hpassed
      obtain ⟨next, hnext, hedges⟩ := runTerminator_eq_ok verified hblock hpassed
      apply Ensures.bind (ofFault_ensures (Q := (· = next)) hnext rfl)
      rintro next rfl
      cases next with
      | inl result => exact Ensures.pure True.intro
      | inr edge =>
          obtain ⟨hedge, harguments⟩ := hedges edge rfl
          obtain ⟨target, cells'', htarget, htake, hstart⟩ :=
            takeEdge_eq_ok verified hblock hedge harguments hpassed
          apply Ensures.bind (ofFault_ensures (Q := (· = cells'')) htake rfl)
          rintro cells'' rfl
          exact ih htarget hstart

/-- The arguments of a run can be assigned to the entry's parameters. -/
lemma enter_eq_ok (verified : f.Verified) (hargs : args.length = f.parameterCount) :
    ∃ entry cells, f.blocks[f.entryBlock.index]? = some entry ∧ f.enter args = .ok cells ∧
      f.Passed f.entryBlock.index entry.parameters.length cells := by
  obtain ⟨hblocks, hentry⟩ := verified.entry
  have hindex : f.entryBlock.index = 0 := by rw [hentry]; rfl
  rw [hindex]
  obtain ⟨entry, hblock⟩ : ∃ entry, f.blocks[0]? = some entry :=
    ⟨_, List.getElem?_eq_getElem (List.length_pos_iff.mpr hblocks)⟩
  have hcount : args.length = entry.parameters.length := by
    rw [hargs, verified.parameters]
    simp [List.getD, hblock]
  have howned := verified.owned.block hblock
  have hparameter : ∀ (j : Nat) parameter, entry.parameters[j]? = some parameter →
      entry.instructions[j]? = some parameter ∧ f.validValue parameter ∧
        isScalarValueType (f.valueType parameter) := by
    intro j parameter hj
    have hlt := (List.getElem?_eq_some_iff.mp hj).1
    have hlt' := lt_of_lt_of_le hlt howned.parameters
    obtain ⟨n, hn, hnode⟩ := howned.instruction j _ (List.getElem?_eq_getElem hlt')
    obtain ⟨hsame, -, -, -, -, htype⟩ := hnode.parameter hlt
    have hsame := hj.symm.trans hsame
    rw [Option.some.inj hsame]
    refine ⟨List.getElem?_eq_getElem hlt', hnode.valid, ?_⟩
    rw [valueType_of_node hnode.valid.1 hn]
    exact (htype rfl).2
  have hstart : f.TypedCells (List.replicate f.nodes.length none) := by
    refine ⟨by simp, fun k n cell _ hcell => ?_⟩
    simp [List.getElem?_replicate] at hcell
  have hassignments : ∀ a ∈ entry.parameters.zip (args.map Payload.scalar),
      f.validValue a.1 ∧ a.2.fits (f.valueType a.1) := by
    rintro ⟨parameter, payload⟩ ha
    obtain ⟨hmem, hpayload⟩ := List.of_mem_zip ha
    obtain ⟨j, hj⟩ := List.mem_iff_getElem?.mp hmem
    obtain ⟨argument, -, rfl⟩ := List.mem_map.mp hpayload
    exact (hparameter j parameter hj).2
  obtain ⟨cells, hassign, htyped, hassigned⟩ := assignParameters_eq_ok hstart hassignments
  refine ⟨entry, cells, hblock, ?_, htyped, fun k c j hdefined hposition => ?_⟩
  · simp only [enter, hindex, hblock, orFault_some, bind_eq_ok (x := Except.ok _)]
    refine ⟨entry, rfl, ?_⟩
    rw [require_bind_eq_ok]
    exact ⟨hcount.ge, hassign⟩
  · rcases hposition with ⟨rfl, hj⟩ | ⟨hne, hdominates⟩
    · apply hassigned
      left
      have hparam := List.getElem?_eq_getElem hj
      have hkey := DefinedAt.inj hdefined
        ⟨entry, _, hblock, (hparameter j _ hparam).1, rfl⟩
      rw [index_zip (by rw [List.length_map, hcount]), hkey]
      exact List.mem_map_of_mem (List.mem_of_getElem? hparam)
    · exact absurd (dominates_entry hdominates) hne

/-- **Graph safety**. -/
lemma evaluate_ensures (host : Host) (hargs : args.length = f.parameterCount) (budget : Nat) :
    Ensures (f.evaluate host args budget) Stop.isStatus fun _ => True := by
  unfold evaluate
  apply Ensures.bind (ofStatus_ensures (Q := fun _ => f.verify = .ok ()) fun _ h => h)
  intro _ hverify
  have verified := verify_verified hverify
  apply Ensures.bind (ofStatus_ensures (Q := fun _ => True) fun _ _ => True.intro)
  intro _ _
  apply Ensures.bind (ofStatus_ensures (Q := fun _ => True) fun _ _ => True.intro)
  intro _ _
  apply Ensures.bind (P := fun _ => True) (fun _ => True.intro)
  intro _ _
  apply Ensures.bind (P := fun _ => True) (fun _ => True.intro)
  intro m _
  apply Ensures.bind (ofStatus_ensures (Q := fun _ => True) fun _ _ => True.intro)
  intro _ _
  unfold run
  apply Ensures.bind (P := fun _ => True) (fun _ => True.intro)
  intro _ _
  obtain ⟨entry, cells, hblock, henter, hstart⟩ := enter_eq_ok verified hargs
  apply Ensures.bind (ofFault_ensures (Q := (· = cells)) henter rfl)
  rintro _ rfl
  exact runBlocks_ensures host verified hblock hstart

end ControlFlowFunction

/-! ## Safety -/

/-- **Verified functions are safe to interpret**: no run of a function or of a graph that its
verifier accepts, on arguments of the right number, in any context and for any budget, meets a
fault. -/
theorem evaluate_safe :
    (∀ (host : Host) (f : Function) (args : List Word) (m : Machine),
      f.verify = .ok () → args.length = f.parameterCount →
      ∀ fault m', f.evaluate host args m ≠ .error (.fault fault) m') ∧
    ∀ (host : Host) (f : ControlFlowFunction) (args : List Word) (budget : Nat) (m : Machine),
      f.verify = .ok () → args.length = f.parameterCount →
      ∀ fault m', f.evaluate host args budget m ≠ .error (.fault fault) m' := by
  constructor
  · intro host f args m _ hargs fault m' hrun
    exact (Function.evaluate_ensures host hargs).of_error hrun
  · intro host f args budget m _ hargs fault m' hrun
    exact (ControlFlowFunction.evaluate_ensures host hargs budget).of_error hrun

/-- A host without floating-point arithmetic, whose helpers add up their arguments. -/
def sampleHost : Host where
  float :=
    { add := fun _ _ => 0, subtract := fun _ _ => 0, multiply := fun _ _ => 0
      divide := fun _ _ => 0, lessThan := fun _ _ => false, lessEqual := fun _ _ => false
      equal := fun _ _ => false, isNan := fun _ => false, add32 := fun _ _ => 0
      subtract32 := fun _ _ => 0, multiply32 := fun _ _ => 0, divide32 := fun _ _ => 0
      widen := fun _ => 0, narrow := fun _ => 0 }
  littleEndian := true
  helper := fun _ arguments => arguments.sum
  exitPollRequested := fun _ => false

/-- `x + x`, after a call of a helper. -/
def doubleSample : Function where
  parameterTypes := [.word]
  callArguments := [.ofIndex 0]
  nodes :=
    [{ opcode := .parameter },
     { opcode := .op .call, immediate := 1, argumentCount := 1 },
     { opcode := .op (.binary .add), lhs := .ofIndex 0, rhs := .ofIndex 1 }]
  returnValue := .ofIndex 2

/-- A loop that counts its argument down to zero. -/
def countdownSample : ControlFlowFunction where
  parameterTypes := [.word]
  entryBlock := .ofIndex 0
  nodes :=
    [{ opcode := .parameter },
     { opcode := .op .constant, immediate := 1 },
     { opcode := .blockParameter },
     { opcode := .op (.binary .subtract), lhs := .ofIndex 2, rhs := .ofIndex 1 }]
  blocks :=
    [{ parameters := [.ofIndex 0]
       instructions := [.ofIndex 0, .ofIndex 1]
       terminator := .jump ⟨.ofIndex 1, [.ofIndex 0]⟩ },
     { parameters := [.ofIndex 2]
       instructions := [.ofIndex 2, .ofIndex 3]
       terminator := .branch (.ofIndex 3) ⟨.ofIndex 1, [.ofIndex 3]⟩ ⟨.ofIndex 2, []⟩ },
     { terminator := .ret (.ofIndex 3) }]

/-- Verified functions of both forms run to their results and reach no fault. -/
theorem evaluate_safe_samples :
    (∃ m', doubleSample.evaluate sampleHost [21] {} = .ok 42 m' ∧
      ∀ fault m', doubleSample.evaluate sampleHost [21] {} ≠ .error (.fault fault) m') ∧
    ∃ m', countdownSample.evaluate sampleHost [3] 9 {} = .ok 0 m' ∧
      ∀ fault m', countdownSample.evaluate sampleHost [3] 9 {} ≠ .error (.fault fault) m' :=
  ⟨⟨_, rfl, evaluate_safe.1 _ _ _ _ (by decide) (by decide)⟩,
    ⟨_, rfl, evaluate_safe.2 _ _ _ _ _ (by decide) (by decide)⟩⟩

-- a run of an unverified graph does meet a fault: here the entry reads a value of the loop
example : ∃ m', { countdownSample with blocks := [{ terminator := .ret (.ofIndex 3) }] }.runBlocks
    sampleHost 1 (.ofIndex 0) [none, none, none, none] {} = .error (.fault .unassigned) m' :=
  ⟨_, rfl⟩

end UniJit.Ir
