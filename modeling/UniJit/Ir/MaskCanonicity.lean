import UniJit.Ir.Configurations
import UniJit.Ir.VectorLanes

/-!
# Masks stay canonical

Every value of a mask type that a run of a verified function or graph assigns has lanes that are
all zeros or all ones, so that a selection always meets a mask it can interpret.

The invariant `Canonical` is about the cells of a configuration. Each instruction that can have a
mask type keeps it, because it keeps the bits of a lane alike; constants satisfy it because the
verifier checks them; an edge hands on what it read at the parameter's own type; and the
parameters of an entry are scalars.
-/

namespace UniJit.Ir

open UniJit.Lib UniJit.Runtime

variable {Op : Type}

/-- The contents of a value, if it is a mask, are canonical. -/
def CanonicalAt (type : ValueType) (payload : Payload) : Prop :=
  isMaskVectorType type = true → vectorMaskIsCanonical payload.bits type = true

/-- Every assigned value of a mask type is canonical. -/
def Canonical (cells : Cells) : Prop :=
  ∀ (k : Nat) (cell : Cell), cells[k]? = some (some cell) → CanonicalAt cell.type cell.payload

/-- Writing a canonical payload keeps the cells canonical. -/
lemma Canonical.set {cells : Cells} (h : Canonical cells) {index : Nat} {type : ValueType}
    {payload : Payload} (hpayload : CanonicalAt type payload) :
    Canonical (cells.set index (some ⟨type, payload⟩)) := by
  intro k cell hcell
  rw [List.getElem?_set] at hcell
  split_ifs at hcell with heq hlt
  · obtain rfl := Option.some.inj (Option.some.inj hcell)
    exact hpayload
  · exact h k cell hcell

/-- Empty cells are canonical. -/
lemma canonical_replicate (n : Nat) : Canonical (List.replicate n none) := by
  intro k cell hcell
  simp [List.getElem?_replicate] at hcell

/-- Only masks have something to be canonical about. -/
lemma canonicalAt_of_not_mask {type : ValueType} (h : isMaskVectorType type = false)
    (payload : Payload) : CanonicalAt type payload := by
  intro hmask
  rw [h] at hmask
  contradiction

/-- A scalar is canonical. -/
lemma canonicalAt_of_scalar {type : ValueType} (h : isScalarValueType type = true)
    (payload : Payload) : CanonicalAt type payload := by
  apply canonicalAt_of_not_mask
  revert h
  cases type <;> decide

/-- A data vector type is not a mask type. -/
lemma not_mask_of_lanes {type : ValueType} (h : isLaneVectorType type = true) :
    isMaskVectorType type = false := by
  revert h
  cases type <;> decide

/-- What is read at a type is canonical there. -/
lemma readOperand_canonical {cells : Cells} (h : Canonical cells) {v : Value}
    {expects : ValueType → Bool} {payload : Payload}
    (hread : readOperand cells v expects = .ok payload) :
    ∃ type, expects type = true ∧ CanonicalAt type payload := by
  unfold readOperand at hread
  split at hread
  · contradiction
  · contradiction
  · rename_i cell hcell
    split_ifs at hread with hexpects
    obtain rfl : cell.payload = payload := by simpa using hread
    exact ⟨cell.type, hexpects, h _ cell hcell⟩

/-- Operands read from canonical cells are canonical. -/
lemma readOperands_canonical {cells : Cells} (h : Canonical cells) {vs : List Value}
    {expects : List (ValueType → Bool)} {payloads : List Payload}
    (hread : readOperands cells vs expects = .ok payloads) :
    List.Forall₂ (fun expects payload => ∃ type, expects type = true ∧ CanonicalAt type payload)
      expects payloads := by
  induction vs generalizing expects payloads with
  | nil =>
      cases expects with
      | nil =>
          obtain rfl : payloads = [] := by simpa [readOperands, eq_comm] using hread
          exact .nil
      | cons _ _ => simp [readOperands] at hread
  | cons v vs ih =>
      cases expects with
      | nil => simp [readOperands] at hread
      | cons expects rest =>
          rw [readOperands, bind_eq_ok] at hread
          obtain ⟨payload, hfirst, hread⟩ := hread
          rw [bind_eq_ok] at hread
          obtain ⟨others, hothers, hread⟩ := hread
          obtain rfl := pure_eq_ok.mp hread
          exact .cons (readOperand_canonical h hfirst) (ih hothers)

/-! ## Instructions -/

/-- An operand read at exactly one type. -/
lemma canonical_operand {expects : List (ValueType → Bool)} {operands : List Payload}
    (h : List.Forall₂ (fun expects payload => ∃ type, expects type = true ∧
      CanonicalAt type payload) expects operands) {i : Nat} {type : ValueType}
    (hi : expects[i]? = some (· == type)) (hmask : isMaskVectorType type = true) :
    LaneUniform (vectorLaneBits type) (operandVector operands i) := by
  obtain ⟨hlength, hall⟩ := List.forall₂_iff_get.mp h
  have hlt := (List.getElem?_eq_some_iff.mp hi).1
  obtain ⟨found, hfound, hcanonical⟩ := hall i hlt (hlength ▸ hlt)
  have hget : expects.get ⟨i, hlt⟩ = (· == type) := (List.getElem?_eq_some_iff.mp hi).2
  rw [hget] at hfound
  obtain rfl : found = type := by simpa using hfound
  have hoperand : operandVector operands i = (operands.get ⟨i, hlength ▸ hlt⟩).bits := by
    simp [operandVector, List.getD, List.getElem?_eq_getElem (hlength ▸ hlt : i < operands.length)]
  rw [hoperand]
  exact (canonical_iff hmask).mp (hcanonical hmask)

/-- The mask type of a comparison has the lanes of what is compared. -/
lemma vectorLaneBits_maskType {c : VectorComparison} {type : ValueType}
    (h : vectorComparisonDefined c type = true) :
    vectorLaneBits (vectorMaskType type) = vectorLaneBits type ∧
      isVectorValueType type = true := by
  revert h
  cases c <;> cases type <;> decide

/-- Pure instructions yield canonical masks, constants apart. -/
lemma PureInstruction.evaluate_canonical {float : FloatUnit} {i : PureInstruction}
    {operands : List Payload} {type : ValueType} (hyields : i.yields type = true)
    (hconstant : ∀ bits, i = .vectorConstant bits → CanonicalAt type (.vector bits))
    (h : List.Forall₂ (fun expects payload => ∃ type, expects type = true ∧
      CanonicalAt type payload) i.expects operands) :
    CanonicalAt type (i.evaluate float operands) := by
  cases i with
  | constant bits => exact canonicalAt_of_scalar hyields _
  | binary o =>
      obtain rfl : type = binaryResultType o := by simpa [yields] using hyields
      exact canonicalAt_of_not_mask (by cases o <;> rfl) _
  | unary o width =>
      obtain rfl : type = unaryOperandType o := by simpa [yields] using hyields
      exact canonicalAt_of_not_mask (by cases o <;> rfl) _
  | patchCell _ | vectorExtractLane _ _ _ | vectorLaneSignMask _ =>
      obtain rfl : type = .word := by simpa [yields] using hyields
      exact canonicalAt_of_not_mask rfl _
  | vectorConstant bits => exact hconstant bits rfl
  | vectorSplat _ | vectorInsertLane _ _ =>
      simp only [yields, Bool.and_eq_true, beq_iff_eq] at hyields
      obtain rfl : type = _ := by tauto
      exact canonicalAt_of_not_mask (not_mask_of_lanes (by tauto)) _
  | vectorUnary o source =>
      simp only [yields, Bool.and_eq_true, beq_iff_eq] at hyields
      obtain ⟨rfl, -⟩ := hyields
      intro hmask
      exact (canonical_iff hmask).mpr (vectorUnary_uniform (o := o) (canonical_operand h rfl hmask))
  | vectorBinary o source =>
      simp only [yields, Bool.and_eq_true, beq_iff_eq] at hyields
      obtain ⟨rfl, -⟩ := hyields
      intro hmask
      exact (canonical_iff hmask).mpr (vectorBinary_uniform hmask (canonical_operand h rfl hmask)
        (canonical_operand (i := 1) h rfl hmask))
  | vectorCompare comparison source =>
      simp only [yields, Bool.and_eq_true, beq_iff_eq] at hyields
      obtain ⟨rfl, hdefined⟩ := hyields
      obtain ⟨hbits, hvector⟩ := vectorLaneBits_maskType hdefined
      intro hmask
      rw [canonical_iff hmask, hbits]
      exact vectorCompare_uniform hvector
  | vectorSelect mask source =>
      simp only [yields, Bool.and_eq_true, beq_iff_eq] at hyields
      obtain ⟨⟨⟨rfl, -⟩, hmaskType⟩, hshape⟩ := hyields
      intro hmask
      have hbits : vectorLaneBits mask = vectorLaneBits type := by
        simp only [vectorShapesMatch, Bool.and_eq_true, beq_iff_eq] at hshape
        exact hshape.2
      have hfirst := canonical_operand (i := 0) h rfl hmaskType
      rw [hbits] at hfirst
      exact (canonical_iff hmask).mpr (vectorSelect_uniform hfirst
        (canonical_operand (i := 1) h rfl hmask) (canonical_operand (i := 2) h rfl hmask))
  | vectorShuffle source shuffle =>
      simp only [yields, Bool.and_eq_true, beq_iff_eq] at hyields
      obtain ⟨rfl, -⟩ := hyields
      intro hmask
      exact (canonical_iff hmask).mpr (vectorShuffle_uniform (canonical_operand h rfl hmask))
  | vectorWiden source result extension half =>
      simp only [yields, Bool.and_eq_true, beq_iff_eq] at hyields
      obtain ⟨rfl, hvalid⟩ := hyields
      refine canonicalAt_of_not_mask ?_ _
      simp only [validVectorWiden, Bool.and_eq_true] at hvalid
      have hinteger := hvalid.1.1.2
      revert hinteger
      cases type <;> decide

/-- The result type of an instruction with effects is no mask type. -/
lemma EffectInstruction.yields_not_mask {i : EffectInstruction} {type : ValueType}
    (h : i.yields type = true) : isMaskVectorType type = false := by
  have hscalar : isScalarValueType type = true → isMaskVectorType type = false := by
    cases type <;> decide
  cases i with
  | guardNonzero _ _ | safepoint _ | atomic _ _ _ | atomicFence _ =>
      obtain rfl : type = .word := by simpa [yields] using h
      rfl
  | call _ _ | loadObject _ _ => exact hscalar h
  | fastCall _ _ =>
      simp only [yields, Bool.and_eq_true] at h
      exact hscalar h.2
  | memory o access moved site =>
      simp only [yields, Bool.and_eq_true, beq_iff_eq] at h
      obtain ⟨rfl, hlanes⟩ := h
      cases o with
      | loadWord | storeWord | loadFloat | storeFloat => rfl
      | loadVector | storeVector => exact not_mask_of_lanes hlanes
  | loadFrame _ _ | storeFrame _ _ | storeObject _ _ _ =>
      simp only [yields, Bool.and_eq_true, beq_iff_eq] at h
      exact hscalar (h.1 ▸ h.2)

/-- An instruction maps canonical operands to a canonical result. -/
lemma Instruction.execute_canonical (host : Host) (texts : Texts) {i : Instruction}
    {operands : List Payload} {type : ValueType} (hyields : i.yields type = true)
    (hconstant : ∀ bits, i = .pure (.vectorConstant bits) → CanonicalAt type (.vector bits))
    (h : List.Forall₂ (fun expects payload => ∃ type, expects type = true ∧
      CanonicalAt type payload) i.expects operands) :
    Ensures (i.execute host texts operands) (fun _ => True) (CanonicalAt type) := by
  cases i with
  | pure i =>
      exact Ensures.pure (PureInstruction.evaluate_canonical hyields
        (fun bits hi => hconstant bits (by rw [hi])) h)
  | effect i =>
      have hnot := EffectInstruction.yields_not_mask hyields
      exact Ensures.mono Ensures.trivial (fun _ h => h) fun payload _ =>
        canonicalAt_of_not_mask hnot payload

/-- Only a constant resolves to one. -/
lemma resolve_vectorConstant {valueType : Value → ValueType} {t : SideTables} {n : NodeOf Op}
    {o : Operation} {bits : Vector128}
    (h : resolve valueType t n o = .ok (.pure (.vectorConstant bits))) :
    o = .vectorConstant ∧ t.vectorConstants[n.immediate.toNat]? = some bits := by
  cases o with
  | vectorConstant =>
      refine ⟨rfl, ?_⟩
      simp only [resolve, bind_eq_ok, pure_eq_ok] at h
      obtain ⟨found, hfound, heq⟩ := h
      cases hentry : t.vectorConstants[n.immediate.toNat]? with
      | none => simp [hentry, orFault] at hfound
      | some entry =>
          obtain rfl : entry = found := by simpa [hentry] using hfound
          obtain rfl : bits = entry := by simpa using heq
          rfl
  | unary o =>
      cases o <;> simp only [resolve, bind_eq_ok, pure_eq_ok, Except.ok.injEq,
        Instruction.pure.injEq, reduceCtorEq, and_false, exists_false] at h
  | _ =>
      simp only [resolve, bind_eq_ok, pure_eq_ok, Except.ok.injEq, Instruction.pure.injEq,
        reduceCtorEq, and_false, exists_false] at h

/-- **One instruction** keeps the assigned masks canonical. -/
lemma runOperation_canonical (host : Host) (texts : Texts) {valueType : Value → ValueType}
    {t : SideTables} {Γ : Value → Option ValueType} {n : NodeOf Op} {o : Operation}
    (sound : t.Sound) (agrees : ∀ v type, Γ v = some type → valueType v = type)
    (typed : Typed t Γ o n) {cells : Cells} (holds : Holds Γ cells) {index : Nat}
    (hindex : index < cells.length) (hcanonical : Canonical cells) :
    Ensures (runOperation host texts valueType t n o index cells) Stop.isStatus Canonical := by
  obtain ⟨i, hresolve, hyields, husable⟩ := typed.resolve sound agrees
  obtain ⟨payloads, hread, -⟩ := readOperands_of_usable holds husable
  have hconstant : ∀ bits, i = .pure (.vectorConstant bits) →
      CanonicalAt n.type (.vector bits) := by
    rintro bits rfl hmask
    obtain ⟨rfl, hbits⟩ := resolve_vectorConstant hresolve
    obtain ⟨-, -, -, -, found, hfound, hvalid⟩ := typed
    obtain rfl : bits = found := by simpa [hbits] using hfound
    exact hvalid hmask
  unfold runOperation
  apply Ensures.bind (ofFault_ensures (Q := (· = i)) hresolve rfl)
  rintro i rfl
  apply Ensures.bind (ofFault_ensures (Q := (· = payloads)) hread rfl)
  rintro operands rfl
  have hexecute := Instruction.execute_canonical host texts hyields hconstant
    (readOperands_canonical hcanonical hread)
  have hfits := execute_fits host texts operands hyields
  have hboth : Ensures (i.execute host texts operands) (fun s => Stop.isStatus (.status s))
      fun payload => payload.fits n.type = true ∧ CanonicalAt n.type payload :=
    (hfits.and hexecute).mono (fun _ _ => True.intro) fun _ h => h
  apply Ensures.bind (Ensures.adaptExcept hboth)
  rintro payload ⟨hfit, hmask⟩
  refine ofFault_ensures (a := cells.set index (some ⟨n.type, payload⟩)) ?_
    (hcanonical.set hmask)
  rw [require_bind_eq_ok, writeCell, require_bind_eq_ok, require_bind_eq_ok]
  exact ⟨hyields, hindex, hfit, rfl⟩

/-- The mask that a selection reads, where its context holds. -/
lemma Typed.selectMask {t : SideTables} {Γ : Value → Option ValueType} {n : NodeOf Op}
    (typed : Typed t Γ .vectorSelect n) {cells : Cells} (holds : Holds Γ cells)
    (hcanonical : Canonical cells) :
    ∃ mask payload, cells[n.lhs.index]? = some (some ⟨mask, payload⟩) ∧
      vectorShapesMatch mask n.type = true ∧ vectorMaskIsCanonical payload.bits mask = true := by
  obtain ⟨-, -, -, hmask, -⟩ := typed
  obtain ⟨mask, hl, hshape⟩ := (Option.any_eq_true ..).mp hmask
  simp only [Bool.and_eq_true] at hshape
  obtain ⟨payload, hcell, -⟩ := holds n.lhs mask hl
  exact ⟨mask, payload, hcell, hshape.2, hcanonical _ _ hcell hshape.1⟩

/-! ## Straight lines -/

namespace Function

variable {host : Host} {f : Function} {args : List Word} {start : Machine}

/-- One node of a verified function keeps the cells canonical. -/
lemma runNode_canonical (host : Host) (verified : f.Verified) {index : Nat} {n : Node}
    {cells : Cells} (hn : f.nodes[index]? = some n) (assigned : f.Assigned index cells)
    (hcanonical : Canonical cells) {cells' : Cells} {m m' : Machine}
    (hrun : f.runNode host args index n cells m = .ok cells' m') : Canonical cells' := by
  have hlt : index < cells.length := by
    rw [assigned.1]
    exact (List.getElem?_eq_some_iff.mp hn).1
  have hnode := verified.node index n hn
  unfold runNode at hrun
  by_cases hparameter : index < f.parameterCount
  · obtain ⟨hopcode, -, -, hscalar, -⟩ := hnode.parameter hparameter
    rw [hopcode] at hrun
    have hset : Ensures (ofFault (do
        let argument ← orFault args[n.immediate.toNat]? .parameter
        writeCell cells index n.type (.scalar argument))) (fun _ => True) Canonical := by
      cases hargument : args[n.immediate.toNat]? with
      | none => exact fun _ => True.intro
      | some argument =>
          have hfits : (Payload.scalar argument).fits n.type = true := hscalar
          have hwrite : writeCell cells index n.type (.scalar argument) =
              .ok (cells.set index (some ⟨n.type, .scalar argument⟩)) := by
            rw [writeCell, require_bind_eq_ok, require_bind_eq_ok]
            exact ⟨hlt, hfits, rfl⟩
          rw [orFault_some]
          refine Ensures.mono (ofFault_ensures (Q := Canonical) hwrite ?_) (fun _ _ => True.intro)
            fun _ h => h
          exact hcanonical.set (canonicalAt_of_scalar hscalar _)
    exact hset.of_ok hrun
  · obtain ⟨o, hopcode, htyped, -⟩ := hnode.operation (by omega)
    rw [hopcode] at hrun
    exact (runOperation_canonical host texts verified.tables (fun v type => earlier_agrees) htyped
      assigned.holds hlt hcanonical).of_ok hrun

/-- **Run lemma** of straight lines. -/
lemma Reached.canonical (verified : f.Verified) (hargs : args.length = f.parameterCount)
    {index : Nat} {cells : Cells} {m : Machine}
    (h : Reached host f args start index cells m) : Canonical cells := by
  induction h with
  | start => exact canonical_replicate _
  | node reached hn hrun ih =>
      exact runNode_canonical host verified hn (reached.assigned verified hargs) ih hrun

end Function

/-! ## Graphs -/

namespace ControlFlowFunction

variable {host : Host} {f : ControlFlowFunction} {args : List Word} {start : Machine}

/-- One instruction of a verified graph keeps the cells canonical. -/
lemma runInstruction_canonical (host : Host) (verified : f.Verified) {b i : Nat}
    {block : BasicBlock} {v : Value} {cells : Cells} (hblock : f.blocks[b]? = some block)
    (hi : block.parameters.length ≤ i) (hv : block.instructions[i]? = some v)
    (h : f.Passed b i cells) (hcanonical : Canonical cells) :
    Ensures (f.runInstruction host v cells) Stop.isStatus Canonical := by
  obtain ⟨n, o, hnode⟩ := verified.node hblock hi hv
  have hlt : v.index < cells.length := by
    rw [h.length]
    exact (List.getElem?_eq_some_iff.mp hnode.node).1
  unfold runInstruction
  apply Ensures.bind (ofFault_ensures (Q := (· = n)) (by rw [hnode.node, orFault_some]) rfl)
  rintro _ rfl
  rw [hnode.opcode]
  exact runOperation_canonical host texts verified.tables (fun _ _ => availableType_eq_some)
    hnode.typed (h.holds verified) hlt hcanonical

/-- Assignments of canonical contents. -/
lemma assignParameters_canonical {assignments : List (Value × Payload)} {cells cells' : Cells}
    (hcanonical : Canonical cells)
    (hassignments : ∀ a ∈ assignments, CanonicalAt (f.valueType a.1) a.2)
    (h : f.assignParameters assignments cells = .ok cells') : Canonical cells' := by
  induction assignments generalizing cells with
  | nil =>
      obtain rfl := Except.ok.inj h
      exact hcanonical
  | cons a rest ih =>
      obtain ⟨parameter, payload⟩ := a
      rw [assignParameters, writeCell, bind_eq_ok] at h
      obtain ⟨written, hwrite, hrest⟩ := h
      rw [require_bind_eq_ok, require_bind_eq_ok] at hwrite
      obtain ⟨-, -, hset⟩ := hwrite
      obtain rfl := Except.ok.inj hset
      exact ih (hcanonical.set (hassignments _ List.mem_cons_self))
        (fun a ha => hassignments a (List.mem_cons_of_mem _ ha)) hrest

/-- An edge assigns what it read at the types of the parameters. -/
lemma takeEdge_canonical {edge : ControlEdge} {cells cells' : Cells}
    (hcanonical : Canonical cells) (h : f.takeEdge edge cells = .ok cells') :
    Canonical cells' := by
  rw [takeEdge, bind_eq_ok] at h
  obtain ⟨target, -, h⟩ := h
  rw [require_bind_eq_ok, bind_eq_ok] at h
  obtain ⟨-, incoming, hread, hassign⟩ := h
  have hreads := readOperands_canonical hcanonical hread
  rw [List.forall₂_map_left_iff] at hreads
  refine assignParameters_canonical hcanonical ?_ hassign
  rintro ⟨parameter, payload⟩ ha
  obtain ⟨type, htype, hpayload⟩ := (List.forall₂_iff_zip.mp hreads).2 ha
  obtain rfl : type = f.valueType parameter := by simpa using htype
  exact hpayload

/-- The parameters of the entry are scalars. -/
lemma enter_canonical (verified : f.Verified) {cells : Cells} (h : f.enter args = .ok cells) :
    Canonical cells := by
  rw [enter, bind_eq_ok] at h
  obtain ⟨entry, hentry, h⟩ := h
  rw [require_bind_eq_ok] at h
  obtain ⟨-, hassign⟩ := h
  refine assignParameters_canonical (canonical_replicate _) ?_ hassign
  rintro ⟨parameter, payload⟩ ha
  obtain ⟨hparameter, -⟩ := List.of_mem_zip ha
  obtain ⟨j, hj⟩ := List.mem_iff_getElem?.mp hparameter
  have hindex : f.entryBlock.index = 0 := by rw [verified.entry.2]; rfl
  have hblock : f.blocks[0]? = some entry := by
    rw [hindex] at hentry
    cases hget : f.blocks[0]? with
    | none => simp [hget, orFault] at hentry
    | some block => simpa [hget] using hentry
  have howned := verified.owned.block hblock
  have hlt := (List.getElem?_eq_some_iff.mp hj).1
  have hlt' := lt_of_lt_of_le hlt howned.parameters
  obtain ⟨n, hn, hnode⟩ := howned.instruction j _ (List.getElem?_eq_getElem hlt')
  obtain ⟨hsame, -, -, -, -, htype⟩ := hnode.parameter hlt
  have hsame := Option.some.inj (hj.symm.trans hsame)
  have hvalue : f.valueType parameter = n.type := by
    rw [hsame]
    exact valueType_of_node hnode.valid.1 hn
  apply canonicalAt_of_scalar
  rw [hvalue]
  exact (htype rfl).2

/-- **Run lemma** of graphs. -/
lemma Reached.canonical (verified : f.Verified) (hargs : args.length = f.parameterCount)
    {b i : Nat} {cells : Cells} {m : Machine} (h : Reached host f args start b i cells m) :
    Canonical cells := by
  induction h with
  | enter hentry henter => exact enter_canonical verified henter
  | instruction reached hblock hv hrun ih =>
      obtain ⟨hpassed, hparameters⟩ := reached.passed verified hargs
      exact (runInstruction_canonical host verified hblock (hparameters _ hblock) hv hpassed
        ih).of_ok hrun
  | edge reached hblock hterminator htarget htake ih => exact takeEdge_canonical ih htake

end ControlFlowFunction

/-! ## Masks of reached configurations -/

/-- Every assigned mask of a list of nodes is a vector, each lane of which is all zeros or all
ones. -/
def MasksCanonical (nodes : List (NodeOf Op)) (cells : Cells) : Prop :=
  ∀ (k : Nat) (n : NodeOf Op) (cell : Cell), nodes[k]? = some n → cells[k]? = some (some cell) →
    isMaskVectorType n.type = true →
    ∃ bits, cell = ⟨n.type, .vector bits⟩ ∧ ∀ lane, lane < vectorLaneCount n.type →
      loadLane bits lane (vectorLaneBits n.type) = 0 ∨
        loadLane bits lane (vectorLaneBits n.type) = laneMask (vectorLaneBits n.type)

/-- The mask of a selection is assigned, of the shape of what it selects, and canonical. -/
def SelectsCanonical (n : NodeOf Op) (cells : Cells) : Prop :=
  ∃ mask payload, cells[n.lhs.index]? = some (some ⟨mask, payload⟩) ∧
    vectorShapesMatch mask n.type = true ∧ vectorMaskIsCanonical payload.bits mask = true

/-- Canonical cells of the nodes' own types hold canonical masks. -/
lemma Canonical.masks {nodes : List (NodeOf Op)} {cells : Cells} (h : Canonical cells)
    (typed : ∀ (k : Nat) (n : NodeOf Op) (cell : Cell), nodes[k]? = some n →
      cells[k]? = some (some cell) → cell.type = n.type ∧ cell.payload.fits n.type = true) :
    MasksCanonical nodes cells := by
  intro k n cell hn hcell hmask
  obtain ⟨htype, hfits⟩ := typed k n cell hn hcell
  have hcanonical := h k cell hcell
  obtain ⟨type, payload⟩ := cell
  obtain rfl : type = n.type := htype
  cases payload with
  | scalar word =>
      have hscalar : isScalarValueType n.type = true := hfits
      exfalso
      revert hmask hscalar
      cases n.type <;> decide
  | vector bits =>
      refine ⟨bits, rfl, fun lane hlane => ?_⟩
      have hbits : vectorMaskIsCanonical bits n.type = true := hcanonical hmask
      simp only [vectorMaskIsCanonical, hmask, Bool.true_and, List.all_eq_true, List.mem_range,
        Bool.or_eq_true, beq_iff_eq] at hbits
      exact hbits lane hlane

/-- **Masks stay canonical**: in every configuration that a run of a verified function or of a
verified graph reaches, each lane of each assigned mask is all zeros or all ones, and a selection
that is about to run finds its mask so. -/
theorem masks_canonical :
    (∀ (host : Host) (f : Function) (args : List Word) (start : Machine) (index : Nat)
      (cells : Cells) (m : Machine), f.verify = .ok () → args.length = f.parameterCount →
      f.Reached host args start index cells m →
      MasksCanonical f.nodes cells ∧
        ∀ n, f.nodes[index]? = some n → n.opcode = .op .vectorSelect → SelectsCanonical n cells) ∧
    ∀ (host : Host) (f : ControlFlowFunction) (args : List Word) (start : Machine) (b i : Nat)
      (cells : Cells) (m : Machine), f.verify = .ok () → args.length = f.parameterCount →
      f.Reached host args start b i cells m →
      MasksCanonical f.nodes cells ∧
        ∀ block v n, f.blocks[b]? = some block → block.instructions[i]? = some v →
          f.nodes[v.index]? = some n → n.opcode = .op .vectorSelect → SelectsCanonical n cells := by
  constructor
  · intro host f args start index cells m hverify hargs hreached
    have verified := Function.verify_eq_ok.mp hverify
    have assigned := hreached.assigned verified hargs
    have hcanonical := hreached.canonical verified hargs
    refine ⟨hcanonical.masks hreached.typed, fun n hn hopcode => ?_⟩
    have hnode := verified.node index n hn
    have hindex : f.parameterCount ≤ index := by
      by_contra hlt
      obtain ⟨hparameter, -⟩ := hnode.parameter (by omega)
      simp [hparameter] at hopcode
    obtain ⟨o, ho, htyped, -⟩ := hnode.operation hindex
    obtain rfl : Operation.vectorSelect = o := by simpa [hopcode] using ho
    exact htyped.selectMask assigned.holds hcanonical
  · intro host f args start b i cells m hverify hargs hreached
    have verified := ControlFlowFunction.verify_verified hverify
    obtain ⟨hpassed, hparameters⟩ := hreached.passed verified hargs
    have hcanonical := hreached.canonical verified hargs
    refine ⟨hcanonical.masks hpassed.typed, fun block v n hblock hv hn hopcode => ?_⟩
    obtain ⟨n', o, hnode⟩ := verified.node hblock (hparameters _ hblock) hv
    obtain rfl := Option.some.inj (hn.symm.trans hnode.node)
    obtain rfl : Operation.vectorSelect = o := by simpa [hopcode] using hnode.opcode
    exact hnode.typed.selectMask (hpassed.holds verified) hcanonical

/-- Splats its argument, compares the lanes with those of a constant and selects by the result. -/
def selectSample : Function where
  parameterTypes := [.word]
  vectorConstants := [7]
  vectorSelectArguments := [.ofIndex 1]
  nodes :=
    [{ opcode := .parameter },
     { opcode := .op .vectorSplat, lhs := .ofIndex 0, type := .i64x2 },
     { opcode := .op .vectorConstant, type := .i64x2 },
     { opcode := .op .vectorCompare, lhs := .ofIndex 1, rhs := .ofIndex 2, type := .mask64x2 },
     { opcode := .op .vectorSelect, lhs := .ofIndex 3, rhs := .ofIndex 2, type := .i64x2 },
     { opcode := .op .vectorLaneSignMask, lhs := .ofIndex 4 }]
  returnValue := .ofIndex 5

/-- The same selection, by a mask that an edge hands on. -/
def selectGraphSample : ControlFlowFunction where
  parameterTypes := [.word]
  vectorConstants := [7]
  vectorSelectArguments := [.ofIndex 1]
  entryBlock := .ofIndex 0
  nodes :=
    [{ opcode := .parameter },
     { opcode := .op .vectorSplat, lhs := .ofIndex 0, type := .i64x2 },
     { opcode := .op .vectorConstant, type := .i64x2 },
     { opcode := .op .vectorCompare, lhs := .ofIndex 1, rhs := .ofIndex 2, type := .mask64x2 },
     { opcode := .blockParameter, type := .mask64x2 },
     { opcode := .op .vectorSelect, lhs := .ofIndex 4, rhs := .ofIndex 2, type := .i64x2 },
     { opcode := .op .vectorLaneSignMask, lhs := .ofIndex 5 }]
  blocks :=
    [{ parameters := [.ofIndex 0]
       instructions := [.ofIndex 0, .ofIndex 1, .ofIndex 2, .ofIndex 3]
       terminator := .jump ⟨.ofIndex 1, [.ofIndex 3]⟩ },
     { parameters := [.ofIndex 4]
       instructions := [.ofIndex 4, .ofIndex 5, .ofIndex 6]
       terminator := .ret (.ofIndex 6) }]

/-- In both forms a configuration before a select is reached, and its mask is canonical. -/
theorem masks_canonical_samples :
    (∃ n cells m, selectSample.Reached sampleHost [7] {} 4 cells m ∧
      selectSample.nodes[4]? = some n ∧ n.opcode = .op .vectorSelect ∧
      SelectsCanonical n cells ∧ MasksCanonical selectSample.nodes cells) ∧
    ∃ n cells m, selectGraphSample.Reached sampleHost [7] {} 1 1 cells m ∧
      selectGraphSample.nodes[5]? = some n ∧ n.opcode = .op .vectorSelect ∧
      SelectsCanonical n cells ∧ MasksCanonical selectGraphSample.nodes cells := by
  constructor
  · have hreached : selectSample.Reached sampleHost [7] {} 4 _ _ :=
      .node (.node (.node (.node .start rfl rfl) rfl rfl) rfl rfl) rfl rfl
    obtain ⟨hmasks, hselect⟩ :=
      masks_canonical.1 sampleHost selectSample [7] {} 4 _ _ (by decide) (by decide) hreached
    exact ⟨_, _, _, hreached, rfl, rfl, hselect _ rfl rfl, hmasks⟩
  · have hstart :=
      @ControlFlowFunction.Reached.enter sampleHost selectGraphSample [7] {} _ _ rfl rfl
    have hcompare :=
      ((hstart.instruction rfl rfl rfl).instruction rfl rfl rfl).instruction rfl rfl rfl
    have hreached :=
      @ControlFlowFunction.Reached.edge _ _ _ _ _ (selectGraphSample.blocks.getD 0 {}) _ _ _ _ _
        hcompare rfl rfl rfl rfl
    obtain ⟨hmasks, hselect⟩ := masks_canonical.2 sampleHost selectGraphSample [7] {} 1 1 _ _
      (by decide) (by decide) hreached
    exact ⟨_, _, _, hreached, rfl, rfl, hselect _ _ _ rfl rfl rfl rfl, hmasks⟩

end UniJit.Ir
