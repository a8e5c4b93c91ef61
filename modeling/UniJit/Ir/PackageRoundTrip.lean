import UniJit.Ir.ControlFlowFacts
import UniJit.Ir.PackageEnvelope

/-!
# Packages and functions

The encoder and the decoder are described by the same relation between a function and the bytes of
a package. `settles_encodePortableFunction` and `settles_decodePortableFunction` (and their
control-flow counterparts) say that each side does not fault and succeeds exactly on that relation;
the round trip, the canonicity of packages and the safety of the decoder are read off.

What the decoder demands of the tables of a function is part of what the verifier demands
(`functionOk_of_verified`, `controlFlowOk_of_verified`); this is where the encoder relies on
verification.
-/

namespace UniJit.Ir

open UniJit.Lib

/-! ## Manifests of functions -/

/-- The manifest counts the tables that both kinds share. -/
structure Counts (m : Manifest) (parameterCount nodeCount : Nat) (t : SideTables) : Prop where
  parameters : m.parameters.toNat = parameterCount
  nodes : m.nodes.toNat = nodeCount
  callArguments : m.callArguments.toNat = t.callArguments.length
  fastCalls : m.fastCalls.toNat = t.fastCalls.length
  memoryRegions : m.memoryRegions.toNat = t.memoryRegionCount
  memoryAccesses : m.memoryAccesses.toNat = t.memoryAccesses.length
  atomicAccesses : m.atomicAccesses.toNat = t.atomicAccesses.length
  frameSlots : m.frameSlots.toNat = t.frameSlots.length
  trustedObjects : m.trustedObjects.toNat = t.trustedObjects.length
  patchCells : m.patchCells.toNat = t.patchCells.length
  vectorConstants : m.vectorConstants.toNat = t.vectorConstants.length
  vectorShuffles : m.vectorShuffles.toNat = t.vectorShuffles.length
  vectorSelectArguments : m.vectorSelectArguments.toNat = t.vectorSelectArguments.length
  signatureValues : m.fastCallSignatureValues.toNat =
    (t.fastCalls.map (·.parameterTypes.length)).sum

/-- A size that is narrowed keeps its value. -/
lemma settles_sizeToU32 (value : Nat) (e : Status) :
    Settles (sizeToU32 value e) fun word => word.toNat = value := by
  unfold sizeToU32
  refine Settles.congr (Settles.requireThen fun _ => Settles.pure _) fun word => ?_
  constructor
  · rintro ⟨hle, rfl⟩
    rw [BitVec.toNat_ofNat]
    omega
  · rintro rfl
    exact ⟨by have := word.isLt; omega, by rw [BitVec.ofNat_toNat, BitVec.setWidth_eq]⟩

/-- The sum of sizes is exact when it fits the size type. -/
lemma settles_addSizes (e : Status) (sizes : List Nat) {total : Nat}
    (htotal : total ≤ kMaximumSize) :
    Settles (addSizes e sizes total) fun sum =>
      total + sizes.sum ≤ kMaximumSize ∧ sum = total + sizes.sum := by
  induction sizes generalizing total with
  | nil => exact (Settles.pure total).congr fun sum => by simp [htotal]
  | cons size sizes ih =>
      rw [addSizes, checkedAdd_eq _ htotal, List.sum_cons, ← Nat.add_assoc]
      by_cases hsum : total + size ≤ kMaximumSize
      · rw [if_pos hsum]
        exact ih hsum
      · rw [if_neg hsum]
        refine ⟨fun f => by simp [Bind.bind, Except.bind], fun sum => ?_⟩
        simp only [Bind.bind, Except.bind, reduceCtorEq, false_iff]
        rintro ⟨hle, -⟩
        omega

/-- The words of a manifest that the shared part leaves at zero. -/
structure Common (m : Manifest) : Prop where
  schema : m.schema = kSchemaRevision
  blocks : m.blocks = 0 ∧ m.blockInstructionReferences = 0 ∧ m.edgeArguments = 0
  ends : m.returnValue = 0 ∧ m.entryBlock = 0
  reserved : m.reserved0 = 0 ∧ m.reserved1 = 0 ∧ m.reserved2 = 0 ∧ m.reserved3 = 0

/-- The manifest that is collected counts the tables. -/
lemma settles_collectCommonManifest (parameterCount nodeCount : Nat) (t : SideTables) :
    Settles (collectCommonManifest parameterCount nodeCount t) fun m =>
      Counts m parameterCount nodeCount t ∧ Common m := by
  unfold collectCommonManifest
  refine Settles.congr ((settles_sizeToU32 _ _).bind fun parameters _ =>
    (settles_sizeToU32 _ _).bind fun nodes _ => (settles_sizeToU32 _ _).bind fun callArguments _ =>
    (settles_sizeToU32 _ _).bind fun fastCalls _ =>
    (settles_sizeToU32 _ _).bind fun memoryRegions _ =>
    (settles_sizeToU32 _ _).bind fun memoryAccesses _ =>
    (settles_sizeToU32 _ _).bind fun atomicAccesses _ =>
    (settles_sizeToU32 _ _).bind fun frameSlots _ =>
    (settles_sizeToU32 _ _).bind fun trustedObjects _ =>
    (settles_sizeToU32 _ _).bind fun patchCells _ =>
    (settles_sizeToU32 _ _).bind fun vectorConstants _ =>
    (settles_sizeToU32 _ _).bind fun vectorShuffles _ =>
    (settles_sizeToU32 _ _).bind fun vectorSelectArguments _ =>
    (settles_addSizes _ _ (Nat.zero_le _)).bind fun signatureValues _ =>
    (settles_sizeToU32 _ _).bind fun fastCallSignatureValues _ => Settles.pure _) fun m => ?_
  constructor
  · rintro ⟨_, h₁, _, h₂, _, h₃, _, h₄, _, h₅, _, h₆, _, h₇, _, h₈, _, h₉, _, h₁₀, _, h₁₁, _, h₁₂,
      _, h₁₃, _, ⟨-, rfl⟩, _, h₁₄, rfl⟩
    rw [Nat.zero_add] at h₁₄
    exact ⟨⟨h₁, h₂, h₃, h₄, h₅, h₆, h₇, h₈, h₉, h₁₀, h₁₁, h₁₂, h₁₃, h₁₄⟩,
      ⟨rfl, ⟨rfl, rfl, rfl⟩, ⟨rfl, rfl⟩, ⟨rfl, rfl, rfl, rfl⟩⟩⟩
  · rintro ⟨hcounts, hcommon⟩
    have hwire := m.fastCallSignatureValues.isLt
    have hsum := hcounts.signatureValues
    refine ⟨_, hcounts.parameters, _, hcounts.nodes, _, hcounts.callArguments, _, hcounts.fastCalls,
      _, hcounts.memoryRegions, _, hcounts.memoryAccesses, _, hcounts.atomicAccesses, _,
      hcounts.frameSlots, _, hcounts.trustedObjects, _, hcounts.patchCells, _,
      hcounts.vectorConstants, _, hcounts.vectorShuffles, _, hcounts.vectorSelectArguments, _,
      ⟨?_, rfl⟩, m.fastCallSignatureValues, ?_, ?_⟩
    · unfold kMaximumSize
      omega
    · rw [Nat.zero_add]
      exact hsum
    · obtain ⟨hschema, ⟨hblocks, hreferences, hedges⟩, ⟨hreturn, hentry⟩, h0, h1, h2, h3⟩ := hcommon
      cases m
      simp_all

/-! ## Verified functions meet the demands of the decoder -/

/-- The shuffle of a well-typed node has at most sixteen lanes. -/
lemma laneCount_le {Op : Type} {n : NodeOf Op} {shuffle : VectorShuffle}
    (h : shuffleLaneCountOk n shuffle) : shuffle.laneCount.toNat ≤ 16 := by
  unfold shuffleLaneCountOk at h
  rw [h]
  cases n.type <;> decide

/-- Sound tables with the right counts meet the demands of the decoder. -/
lemma tablesOk_of_sound {m : Manifest} {p k : Nat} {t : SideTables} (hcounts : Counts m p k t)
    (hsound : t.Sound) (hshuffle : ∀ shuffle ∈ t.vectorShuffles, shuffle.laneCount.toNat ≤ 16) :
    TablesOk m t where
  callArguments := hcounts.callArguments.symm
  fastCalls :=
    ⟨hcounts.fastCalls.symm, hcounts.signatureValues.symm, fun d hd => (hsound.fastCalls d hd).1,
      fun d hd => (hsound.fastCalls d hd).2⟩
  memoryRegionCount := hcounts.memoryRegions.symm
  memoryAccesses := hcounts.memoryAccesses.symm
  atomicAccesses := hcounts.atomicAccesses.symm
  frameSlots := ⟨hcounts.frameSlots.symm, hsound.frameSlots⟩
  trustedObjects := by
    refine ⟨hcounts.trustedObjects.symm, fun object hobject => ?_⟩
    have hsize : object.byteSize ≤ 2048 := (hsound.trustedObjects object hobject).2.2.1
    unfold kMaximumSize
    omega
  patchCells := hcounts.patchCells.symm
  vectorConstants := hcounts.vectorConstants.symm
  vectorShuffles := ⟨hcounts.vectorShuffles.symm, hshuffle⟩
  vectorSelectArguments := hcounts.vectorSelectArguments.symm

/-- Tables that were accepted are counted by the manifest. -/
lemma counts_of_tablesOk {m : Manifest} {p k : Nat} {t : SideTables}
    (hp : p = m.parameters.toNat) (hk : k = m.nodes.toNat) (h : TablesOk m t) : Counts m p k t :=
  ⟨hp.symm, hk.symm, h.callArguments.symm, h.fastCalls.length.symm, h.memoryRegionCount.symm,
    h.memoryAccesses.symm, h.atomicAccesses.symm, h.frameSlots.1.symm, h.trustedObjects.1.symm,
    h.patchCells.symm, h.vectorConstants.symm, h.vectorShuffles.1.symm,
    h.vectorSelectArguments.symm, h.fastCalls.total.symm⟩

/-- Every shuffle of a verified function belongs to a well-typed node. -/
lemma Function.Verified.laneCount_le {f : Function} (h : f.Verified) :
    ∀ shuffle ∈ f.vectorShuffles, shuffle.laneCount.toNat ≤ 16 := by
  -- the counter of the shuffle table only passes entries that a node refers to
  have hcounter : ∀ k, k ≤ f.nodes.length → ∀ i, i < (f.expectedAt k).vectorShuffle →
      ∃ shuffle, f.vectorShuffles[i]? = some shuffle ∧ shuffle.laneCount.toNat ≤ 16 := by
    intro k
    induction k with
    | zero =>
        intro _ i hi
        exact absurd hi (Nat.not_lt_zero _)
    | succ k ih =>
        intro hk i hi
        have hnode := List.getElem?_eq_getElem (show k < f.nodes.length by omega)
        have hnext : f.expectedAt (k + 1) = advanceNode (f.expectedAt k) f.nodes[k] := by
          unfold expectedAt
          rw [List.take_succ_eq_append_getElem (by omega), List.foldl_append]
          rfl
        rw [hnext] at hi
        by_cases hp : k < f.parameterCount
        · unfold advanceNode at hi
          rw [((h.node k _ hnode).parameter hp).1] at hi
          exact ih (by omega) i hi
        · obtain ⟨o, hopcode, htyped, hclaims, -⟩ := (h.node k _ hnode).operation (by omega)
          unfold advanceNode at hi
          rw [hopcode] at hi
          cases o with
          | vectorShuffle =>
              obtain ⟨-, -, shuffle, hshuffle, hcount, -⟩ := htyped
              by_cases hlast : i = (f.expectedAt k).vectorShuffle
              · rw [hlast, ← hclaims]
                exact ⟨shuffle, hshuffle, Ir.laneCount_le hcount⟩
              · simp only [Expected.advance] at hi
                exact ih (by omega) i (by omega)
          | _ => exact ih (by omega) i hi
  intro shuffle hmem
  obtain ⟨i, hi⟩ := List.mem_iff_getElem?.mp hmem
  have hlt := (List.getElem?_eq_some_iff.mp hi).1
  obtain ⟨shuffle', hshuffle', hle⟩ := hcounter _ le_rfl i (by rw [h.claimed]; exact hlt)
  obtain rfl := Option.some.inj (hi.symm.trans hshuffle')
  exact hle

/-- The parameters of a verified function are scalar. -/
lemma Function.Verified.parameter_scalar {f : Function} (h : f.Verified) :
    ∀ type ∈ f.parameterTypes, isScalarValueType type = true := by
  intro type hmem
  obtain ⟨i, hi⟩ := List.mem_iff_getElem?.mp hmem
  have hlt : i < f.parameterCount := (List.getElem?_eq_some_iff.mp hi).1
  have hnode := List.getElem?_eq_getElem (hlt.trans_le h.parameters)
  obtain ⟨-, -, htype, hscalar, -⟩ := (h.node i _ hnode).parameter hlt
  have heq : f.parameterType i = type := by simp [Function.parameterType, List.getD, hi]
  rwa [htype, heq] at hscalar

/-- A verified function without runtime calls is one the reader accepts. -/
lemma functionOk_of_verified {m : Manifest} {f : Function} (h : f.verify = .ok ())
    (hcall : ∀ n ∈ f.nodes, n.opcode ≠ .op .call)
    (hcounts : Counts m f.parameterCount f.nodes.length f.toSideTables)
    (hreturn : f.returnValue.id = m.returnValue) : FunctionOk m f where
  parameterTypes := ⟨hcounts.parameters.symm, (Function.verify_eq_ok.mp h).parameter_scalar⟩
  nodes := ⟨hcounts.nodes.symm, hcall⟩
  tables :=
    have hverified := Function.verify_eq_ok.mp h
    tablesOk_of_sound hcounts hverified.tables hverified.laneCount_le
  returnValue := hreturn

/-- Every shuffle of a verified graph belongs to a well-typed node. -/
lemma ControlFlowFunction.Verified.laneCount_le {f : ControlFlowFunction} (h : f.Verified) :
    ∀ shuffle ∈ f.vectorShuffles, shuffle.laneCount.toNat ≤ 16 := by
  intro shuffle hmem
  obtain ⟨i, hi⟩ := List.mem_iff_getElem?.mp hmem
  have hlt := (List.getElem?_eq_some_iff.mp hi).1
  obtain ⟨b, j, v, n, o, hnode, hclaim⟩ := h.claimed .vectorShuffles i hlt
  have htyped := hnode.typed
  cases o with
  | vectorShuffle =>
      obtain ⟨-, -, shuffle', hshuffle', hcount, -⟩ := htyped
      obtain rfl : i = n.immediate.toNat := by simpa [claimsOf] using hclaim
      obtain rfl := Option.some.inj (hi.symm.trans hshuffle')
      exact Ir.laneCount_le hcount
  | _ => simp [claimsOf] at hclaim

/-- The parameters of a verified graph are scalar. -/
lemma ControlFlowFunction.Verified.parameter_scalar {f : ControlFlowFunction} (h : f.Verified) :
    ∀ type ∈ f.parameterTypes, isScalarValueType type = true := by
  intro type hmem
  obtain ⟨i, hi⟩ := List.mem_iff_getElem?.mp hmem
  have hlt : i < f.parameterCount := (List.getElem?_eq_some_iff.mp hi).1
  obtain ⟨entry, hentry⟩ : ∃ entry, f.blocks[0]? = some entry :=
    ⟨_, List.getElem?_eq_getElem (List.length_pos_of_ne_nil h.entry.1)⟩
  have hblock := h.owned.block hentry
  have hparams : i < entry.parameters.length := by
    have := h.parameters
    rw [List.getD, hentry, Option.getD_some] at this
    omega
  have hinstruction := List.getElem?_eq_getElem (hparams.trans_le hblock.parameters)
  obtain ⟨n, -, hnode⟩ := hblock.instruction i _ hinstruction
  obtain ⟨htype, hscalar⟩ := (hnode.parameter hparams).2.2.2.2.2 rfl
  have heq : f.parameterType i = type := by simp [ControlFlowFunction.parameterType, List.getD, hi]
  rwa [htype, heq] at hscalar

/-- The block structure of a verified graph meets the demands of the decoder. -/
lemma ControlFlowFunction.Verified.blockOk {f : ControlFlowFunction} (h : f.Verified) {b : Nat}
    {block : BasicBlock} (hblock : f.blocks[b]? = some block)
    (hinstructions : block.instructions.length < 2 ^ 32)
    (hedges : edgeArgumentCount block < 2 ^ 32) : BlockOk block := by
  have howned := h.owned.block hblock
  have hsum : edgeArgumentCount block = block.terminator.trueEdge.arguments.length +
      block.terminator.falseEdge.arguments.length := rfl
  refine ⟨hinstructions, ?_, by omega, by omega, ?_⟩
  · refine List.ext_getElem? fun i => ?_
    rw [List.getElem?_take]
    split_ifs with hi
    · have hinstruction := List.getElem?_eq_getElem (hi.trans_le howned.parameters)
      obtain ⟨n, -, hnode⟩ := howned.instruction i _ hinstruction
      rw [hinstruction, (hnode.parameter hi).1]
    · exact List.getElem?_eq_none (by omega)
  · have hedge := howned.edge
    have hterminator := h.terminator hblock
    cases hterm : block.terminator with
    | none => exact howned.terminated hterm
    | ret value => trivial
    | jump edge =>
        rw [hterm] at hedge
        exact (hedge edge (by simp [ControlTerminator.edges])).valid.1
    | branch condition trueEdge falseEdge =>
        rw [hterm] at hedge hterminator
        refine ⟨?_, (hedge trueEdge (by simp [ControlTerminator.edges])).valid.1,
          (hedge falseEdge (by simp [ControlTerminator.edges])).valid.1⟩
        have hcondition := hterminator.1
        unfold ControlFlowFunction.context ControlFlowFunction.availableType at hcondition
        split_ifs at hcondition with havailable
        simp only [ControlFlowFunction.available, Bool.and_eq_true, decide_eq_true_eq] at havailable
        exact havailable.1.1

/-- A verified graph without runtime calls is one the reader accepts. -/
lemma controlFlowOk_of_verified {m : Manifest} {f : ControlFlowFunction} (h : f.verify = .ok ())
    (hcall : ∀ n ∈ f.nodes, n.opcode ≠ .op .call)
    (hcounts : Counts m f.parameterCount f.nodes.length f.toSideTables)
    (hblocks : m.blocks.toNat = f.blocks.length)
    (hreferences : m.blockInstructionReferences.toNat =
      (f.blocks.map (·.instructions.length)).sum)
    (hedges : m.edgeArguments.toNat = (f.blocks.map edgeArgumentCount).sum)
    (hentry : f.entryBlock.id = m.entryBlock) : ControlFlowOk m f := by
  have hverified := ControlFlowFunction.verify_verified h
  refine ⟨⟨hcounts.parameters.symm, hverified.parameter_scalar⟩, ⟨hcounts.nodes.symm, hcall⟩,
    tablesOk_of_sound hcounts hverified.tables hverified.laneCount_le,
    ⟨hblocks.symm, fun block hmem => ?_, hreferences.symm, hedges.symm⟩, hentry⟩
  obtain ⟨b, hb⟩ := List.mem_iff_getElem?.mp hmem
  have h1 := m.blockInstructionReferences.isLt
  have h2 := m.edgeArguments.isLt
  exact hverified.blockOk hb ((le_of_mem_of_sum hreferences.symm hmem).trans_lt h1)
    ((le_of_mem_of_sum hedges.symm hmem).trans_lt h2)

/-! ## Straight-line packages -/

/-- The result of encoding. -/
def encodedOf (kind : PortableIrKind) (m : Manifest) (body : List Byte) : PortableIrEncodeResult :=
  ⟨(envelopeOf kind m body).metadata, packageOf kind m body⟩

/-- A computation that may be refused reaches no fault. -/
lemma settles_rejecting {α : Type} (x : Except Status α) :
    Settles (rejecting x) fun a => x = .ok a := by
  cases x with
  | ok a => exact (Settles.pure a).congr fun b => by simp [eq_comm]
  | error e => exact ⟨fun f => by simp [rejecting], fun a => by simp [rejecting]⟩

/-- There is no runtime call exactly when no node is one. -/
lemma hasRuntimeCall_eq_false {Op : Type} [DecidableEq Op] {runtimeCall : Op}
    {nodes : List (NodeOf Op)} :
    hasRuntimeCall runtimeCall nodes = false ↔ ∀ n ∈ nodes, n.opcode ≠ runtimeCall := by
  simp [hasRuntimeCall]

/-- What is finished is the package of its manifest and body, within the limits. -/
lemma settles_finishEncoding (kind : PortableIrKind) (m : Manifest) (body : List Byte)
    (limits : PortableIrLimits) :
    Settles (finishEncoding kind (packagePayload m body) m limits) fun r =>
      (kBodyOffset + body.length ≤ kMaximumSize ∧
        kBodyOffset + body.length ≤ limits.maximumPackageBytes) ∧ r = encodedOf kind m body := by
  unfold finishEncoding
  refine Settles.congr (Settles.requireThen fun _ => Settles.requireThen fun _ =>
    Settles.pure _) fun r => ?_
  have hlength := length_packagePayload m body
  have hheader : kHeaderSize ≤ kMaximumSize := by decide
  unfold kBodyOffset
  constructor
  · rintro ⟨hsmall, hbytes, rfl⟩
    exact ⟨⟨by omega, by omega⟩, rfl⟩
  · rintro ⟨⟨hsmall, hbytes⟩, rfl⟩
    exact ⟨by omega, by omega, rfl⟩

/-- What the limits leave open of a straight-line manifest. -/
lemma validateManifestLimits_function {m : Manifest} {limits : PortableIrLimits}
    (h : validateManifestLimits m .function limits = .ok ()) :
    m.blocks = 0 ∧ m.blockInstructionReferences = 0 ∧ m.edgeArguments = 0 ∧
      m.entryBlock = kInvalidIndex := by
  simp only [validateManifestLimits, rejectUnless, require_bind_eq_ok, require_eq_ok] at h
  exact h.2.2.2.2.2.2.2.2.2.2.2.2

/-- What the limits leave open of a control-flow manifest. -/
lemma validateManifestLimits_controlFlow {m : Manifest} {limits : PortableIrLimits}
    (h : validateManifestLimits m .controlFlow limits = .ok ()) :
    m.returnValue = kInvalidIndex ∧ m.entryBlock = 0 := by
  simp only [validateManifestLimits, rejectUnless, require_bind_eq_ok, require_eq_ok] at h
  obtain ⟨hreturn, hentry, -⟩ := h.2.2.2.2.2.2.2.2.2.2.2.2
  exact ⟨hreturn, hentry⟩

/-- A straight-line function and its package. -/
structure FunctionPackage (limits : PortableIrLimits) (f : Function) (m : Manifest) : Prop where
  verified : f.verify = .ok ()
  function : FunctionOk m f
  envelope : EnvelopeOk limits .function m (writeFunction f).length

/-- **The encoder** of straight-line functions. -/
lemma settles_encodePortableFunction (f : Function) (limits : PortableIrLimits) :
    Settles (encodePortableFunction f limits) fun r => ∃ m, FunctionPackage limits f m ∧
      r = encodedOf .function m (writeFunction f) := by
  have hpayload : ∀ m, writeCommon Opcode.order f.parameterTypes f.nodes f.toSideTables m =
      packagePayload m (writeFunction f) := fun _ => rfl
  unfold encodePortableFunction
  simp only [hpayload]
  refine Settles.congr ((settles_rejecting _).bind fun _ _ => Settles.requireThen fun _ =>
    (settles_collectCommonManifest _ _ _).bind fun common _ =>
    (Settles.self (validateManifestLimits_safe _ _ _)).bind fun _ _ =>
    (settles_expectedPayloadSize _).bind fun size _ => Settles.requireThen fun _ =>
    settles_finishEncoding _ _ _ _) fun r => ?_
  constructor
  · rintro ⟨_, hverify, hcall, common, ⟨hcounts, hcommon⟩, _, hlimits, size, ⟨-, hsize⟩, hlength,
      ⟨hsmall, hbytes⟩, rfl⟩
    rw [length_packagePayload, hsize] at hlength
    refine ⟨{ common with returnValue := f.returnValue.id, entryBlock := kInvalidIndex },
      ⟨hverify, functionOk_of_verified hverify (hasRuntimeCall_eq_false.mp hcall) ?_ rfl,
        ⟨hcommon.schema, hcommon.reserved, hlimits, by omega, hbytes, hsmall⟩⟩, rfl⟩
    exact ⟨hcounts.1, hcounts.2, hcounts.3, hcounts.4, hcounts.5, hcounts.6, hcounts.7, hcounts.8,
      hcounts.9, hcounts.10, hcounts.11, hcounts.12, hcounts.13, hcounts.14⟩
  · rintro ⟨m, ⟨hverify, hf, henvelope⟩, rfl⟩
    obtain ⟨hblocks, hreferences, hedges, hentry⟩ :=
      validateManifestLimits_function henvelope.withinLimits
    have hm : { ({ m with returnValue := 0, entryBlock := 0 } : Manifest) with
        returnValue := f.returnValue.id, entryBlock := kInvalidIndex } = m := by
      rw [hf.returnValue, ← hentry]
    have hcounts : Counts { m with returnValue := 0, entryBlock := 0 } f.parameterCount
        f.nodes.length f.toSideTables := by
      have h := counts_of_tablesOk hf.parameterTypes.1 hf.nodes.1 hf.tables
      exact ⟨h.1, h.2, h.3, h.4, h.5, h.6, h.7, h.8, h.9, h.10, h.11, h.12, h.13, h.14⟩
    have hsize := henvelope.size
    have hsmall := henvelope.small
    unfold kBodyOffset at hsmall
    refine ⟨(), hverify, hasRuntimeCall_eq_false.mpr hf.nodes.2,
      { m with returnValue := 0, entryBlock := 0 }, ⟨hcounts, henvelope.schema,
        ⟨hblocks, hreferences, hedges⟩, ⟨rfl, rfl⟩, henvelope.reserved⟩, (), ?_, ?_⟩
    · rw [hm]
      exact henvelope.withinLimits
    · rw [hm]
      refine ⟨_, ⟨by omega, rfl⟩, by rw [length_packagePayload, hsize],
        ⟨henvelope.small, henvelope.bytes⟩, rfl⟩

/-- The body follows header and manifest. -/
lemma drop_body (kind : PortableIrKind) (m : Manifest) (body : List Byte) :
    (packageOf kind m body).drop kBodyOffset = body := by
  rw [kBodyOffset, ← List.drop_drop, drop_packageOf, packagePayload,
    List.drop_left' (length_manifestBytes m)]

/-- The window of a package's body. -/
def bodyWindow (bytes : List Byte) (bodySize : Nat) : Window :=
  ⟨bytes, kBodyOffset, bodySize, bytes.length - kHeaderSize⟩

/-- Behind an accepted envelope, the body window lies in the package, shows exactly the body, and
the counts of the manifest respect the limit for tables. -/
lemma bodyWindow_spec {limits : PortableIrLimits} {kind : PortableIrKind} {m : Manifest}
    {body : List Byte} (hok : EnvelopeOk limits kind m body.length) :
    (bodyWindow (packageOf kind m body) body.length).Fits ∧
      (bodyWindow (packageOf kind m body) body.length).ahead 0 = body ∧
      m.Bounded ((packageOf kind m body).length - kHeaderSize) := by
  have hlength := length_packageOf kind m body
  have hsmall := hok.small
  unfold kMaximumSize at hsmall
  refine ⟨⟨hlength.ge, show body.length < _ by omega⟩, ?_, fun count hcount => ?_⟩
  · show ((packageOf kind m body).drop kBodyOffset).take body.length = body
    rw [drop_body, List.take_length]
  · refine (bounded_recordsSize m count hcount).trans ?_
    rw [hok.size, hlength, kBodyOffset]
    omega

/-- A body reader behind an accepted envelope. -/
lemma settles_readBody {α : Type} {bytes : List Byte} {limits : PortableIrLimits}
    {envelope : Envelope} {r : Manifest → Reading Status α}
    {Q : Manifest → α → List Byte → Prop}
    (hr : ∀ {m limit}, Manifest.Bounded m limit → Reads limit (r m) (Q m))
    (henvelope : parseEnvelope bytes limits = .ok envelope) :
    Settles (readWindow bytes kBodyOffset envelope.bodySize
        (requireConsumed (r envelope.manifest))) fun p =>
      Q envelope.manifest p.1 (bytes.drop kBodyOffset) ∧ p.2 = envelope.bodySize := by
  obtain ⟨kind, m, body, hok, rfl, rfl⟩ := ((settles_parseEnvelope bytes limits).exact _).mp
    henvelope
  obtain ⟨hfits, hahead, hbounded⟩ := bodyWindow_spec hok
  obtain ⟨hsafe, hexact⟩ := (hr hbounded).whole
    (invalidPackage "portable IR package has trailing bytes") hfits rfl
  rw [hahead] at hexact
  rw [drop_body]
  exact ⟨hsafe, fun p => hexact p.1 p.2⟩

/-- The body reader of an accepted package reads all of the body. -/
lemma readBody_consumes {α : Type} {limits : PortableIrLimits} {kind : PortableIrKind}
    {m : Manifest} {body : List Byte} {r : Manifest → Reading Status α}
    {Q : Manifest → α → List Byte → Prop}
    (hr : ∀ {m limit}, Manifest.Bounded m limit → Reads limit (r m) (Q m))
    (hok : EnvelopeOk limits kind m body.length) {a : α} (ha : Q m a body) :
    ∃ envelope, parseEnvelope (packageOf kind m body) limits = .ok envelope ∧
      kBodyOffset + envelope.bodySize = (packageOf kind m body).length ∧
      readWindow (packageOf kind m body) kBodyOffset envelope.bodySize (r envelope.manifest) =
        .ok (a, envelope.bodySize) := by
  obtain ⟨hfits, hahead, hbounded⟩ := bodyWindow_spec hok
  refine ⟨envelopeOf kind m body, ((settles_parseEnvelope _ _).exact _).mpr
    ⟨kind, m, body, hok, rfl, rfl⟩, (length_packageOf kind m body).symm, ?_⟩
  refine ((hr hbounded).exact (bodyWindow (packageOf kind m body) body.length) 0 hfits rfl
    (Nat.zero_le _) a _).mpr ⟨body, ha, ?_, (Nat.zero_add _).symm⟩
  rw [hahead]

/-- **The decoder** of straight-line functions. -/
lemma settles_decodePortableFunction (bytes : List Byte) (limits : PortableIrLimits) :
    Settles (decodePortableFunction bytes limits) fun d => ∃ m,
      FunctionPackage limits d.function m ∧
        encodedOf .function m (writeFunction d.function) = ⟨d.metadata, bytes⟩ := by
  unfold decodePortableFunction
  refine Settles.congr ((settles_parseEnvelope bytes limits).bind fun envelope henvelope =>
    Settles.requireThen fun _ =>
    (settles_readBody reads_function (((settles_parseEnvelope bytes limits).exact _).mpr
      henvelope)).bind fun p _ => (settles_rejecting _).bind fun _ _ => Settles.pure _) fun d => ?_
  constructor
  · rintro ⟨_, ⟨kind, m, body, hok, rfl, rfl⟩, rfl, ⟨f, _⟩, ⟨⟨hf, hbody⟩, -⟩, _, hverify, rfl⟩
    rw [drop_body] at hbody
    subst hbody
    exact ⟨m, ⟨hverify, hf, hok⟩, rfl⟩
  · rintro ⟨m, ⟨hverify, hf, hok⟩, hencoded⟩
    obtain ⟨metadata, f⟩ := d
    obtain ⟨rfl, rfl⟩ : _ = metadata ∧ _ = bytes := by simpa [encodedOf] using hencoded
    exact ⟨_, ⟨_, _, _, hok, rfl, rfl⟩, rfl, (f, _), ⟨⟨hf, drop_body _ _ _⟩, rfl⟩, (),
      hverify, rfl⟩

/-! ## Control-flow packages -/

/-- A control-flow graph and its package. -/
structure ControlFlowPackage (limits : PortableIrLimits) (f : ControlFlowFunction)
    (m : Manifest) : Prop where
  verified : f.verify = .ok ()
  function : ControlFlowOk m f
  envelope : EnvelopeOk limits .controlFlow m (writeControlFlow f).length

/-- The references counted over the blocks are exact. -/
lemma settles_countReferences (blocks : List BasicBlock) {counts : Nat × Nat}
    (hcounts : counts.1 ≤ kMaximumSize ∧ counts.2 ≤ kMaximumSize) :
    Settles (countReferences blocks counts) fun sums =>
      (counts.1 + (blocks.map (·.instructions.length)).sum ≤ kMaximumSize ∧
        counts.2 + (blocks.map edgeArgumentCount).sum ≤ kMaximumSize) ∧
      sums = (counts.1 + (blocks.map (·.instructions.length)).sum,
        counts.2 + (blocks.map edgeArgumentCount).sum) := by
  induction blocks generalizing counts with
  | nil => exact (Settles.pure counts).congr fun sums => by simp [hcounts]
  | cons block blocks ih =>
      unfold countReferences
      have hedges : ([block.terminator.trueEdge.arguments.length,
          block.terminator.falseEdge.arguments.length] : List Nat).sum =
            edgeArgumentCount block := by
        simp [edgeArgumentCount]
      refine Settles.congr ((settles_addSizes _ _ hcounts.1).bind fun references href =>
        (settles_addSizes _ _ hcounts.2).bind fun edges hedge =>
        ih ⟨href.2 ▸ href.1, hedge.2 ▸ hedge.1⟩) fun sums => ?_
      simp only [hedges, List.sum_cons, List.sum_nil, List.map_cons, Nat.add_zero, ← Nat.add_assoc]
      constructor
      · rintro ⟨_, ⟨-, rfl⟩, _, ⟨-, rfl⟩, hle, rfl⟩
        exact ⟨hle, rfl⟩
      · rintro ⟨hle, rfl⟩
        exact ⟨_, ⟨by omega, rfl⟩, _, ⟨by omega, rfl⟩, hle, rfl⟩

/-- **The encoder** of control-flow graphs. -/
lemma settles_encodePortableControlFlow (f : ControlFlowFunction) (limits : PortableIrLimits) :
    Settles (encodePortableControlFlow f limits) fun r => ∃ m, ControlFlowPackage limits f m ∧
      r = encodedOf .controlFlow m (writeControlFlow f) := by
  have hpayload : ∀ m, writeCommon ControlOpcode.order f.parameterTypes f.nodes f.toSideTables m ++
      f.blocks.flatMap writeBlock = packagePayload m (writeControlFlow f) := by
    intro m
    simp only [writeCommon, packagePayload, manifestBytes, writeControlFlow, List.append_assoc]
  unfold encodePortableControlFlow
  simp only [hpayload]
  refine Settles.congr ((settles_rejecting _).bind fun _ _ => Settles.requireThen fun _ =>
    (settles_collectCommonManifest _ _ _).bind fun common _ =>
    (settles_sizeToU32 _ _).bind fun blocks _ =>
    (settles_countReferences _ ⟨Nat.zero_le _, Nat.zero_le _⟩).bind fun sums _ =>
    (settles_sizeToU32 _ _).bind fun references _ => (settles_sizeToU32 _ _).bind fun edges _ =>
    (Settles.self (validateManifestLimits_safe _ _ _)).bind fun _ _ =>
    (settles_expectedPayloadSize _).bind fun size _ => Settles.requireThen fun _ =>
    settles_finishEncoding _ _ _ _) fun r => ?_
  simp only [Nat.zero_add]
  constructor
  · rintro ⟨_, hverify, hcall, common, ⟨hcounts, hcommon⟩, blocks, hblocks, sums, ⟨-, hsums⟩,
      references, hreferences, edges, hedges, _, hlimits, size, ⟨-, hsize⟩, hlength,
      ⟨hsmall, hbytes⟩, rfl⟩
    rw [length_packagePayload, hsize] at hlength
    rw [hsums] at hreferences hedges
    refine ⟨{ common with
        returnValue := kInvalidIndex, entryBlock := f.entryBlock.id, blocks,
        blockInstructionReferences := references, edgeArguments := edges },
      ⟨hverify, controlFlowOk_of_verified hverify (hasRuntimeCall_eq_false.mp hcall) ?_ hblocks
        hreferences hedges rfl,
        ⟨hcommon.schema, hcommon.reserved, hlimits, by omega, hbytes, hsmall⟩⟩, rfl⟩
    exact ⟨hcounts.1, hcounts.2, hcounts.3, hcounts.4, hcounts.5, hcounts.6, hcounts.7, hcounts.8,
      hcounts.9, hcounts.10, hcounts.11, hcounts.12, hcounts.13, hcounts.14⟩
  · rintro ⟨m, ⟨hverify, hf, henvelope⟩, rfl⟩
    obtain ⟨hreturn, -⟩ := validateManifestLimits_controlFlow henvelope.withinLimits
    let common : Manifest :=
      { m with
        returnValue := 0, entryBlock := 0, blocks := 0, blockInstructionReferences := 0,
        edgeArguments := 0 }
    have hm : { common with
        returnValue := kInvalidIndex, entryBlock := f.entryBlock.id, blocks := m.blocks,
        blockInstructionReferences := m.blockInstructionReferences,
        edgeArguments := m.edgeArguments } = m := by
      rw [hf.entryBlock, ← hreturn]
    have hcounts : Counts common f.parameterCount f.nodes.length f.toSideTables := by
      have h := counts_of_tablesOk hf.parameterTypes.1 hf.nodes.1 hf.tables
      exact ⟨h.1, h.2, h.3, h.4, h.5, h.6, h.7, h.8, h.9, h.10, h.11, h.12, h.13, h.14⟩
    have hsize := henvelope.size
    have hsmall := henvelope.small
    have hreferences := hf.blocks.references
    have hedges := hf.blocks.edges
    have h1 := m.blockInstructionReferences.isLt
    have h2 := m.edgeArguments.isLt
    have hmaximum : 2 ^ 32 ≤ kMaximumSize := by decide
    unfold kBodyOffset at hsmall
    refine ⟨(), hverify, hasRuntimeCall_eq_false.mpr hf.nodes.2, common, ⟨hcounts,
      henvelope.schema, ⟨rfl, rfl, rfl⟩, ⟨rfl, rfl⟩, henvelope.reserved⟩, m.blocks,
      hf.blocks.length.symm, _, ⟨⟨by omega, by omega⟩, rfl⟩, m.blockInstructionReferences,
      hreferences.symm, m.edgeArguments, hedges.symm, (), ?_, ?_⟩
    · rw [hm]
      exact henvelope.withinLimits
    · rw [hm]
      exact ⟨_, ⟨by omega, rfl⟩, by rw [length_packagePayload, hsize],
        ⟨henvelope.small, henvelope.bytes⟩, rfl⟩

/-- **The decoder** of control-flow graphs. -/
lemma settles_decodePortableControlFlow (bytes : List Byte) (limits : PortableIrLimits) :
    Settles (decodePortableControlFlow bytes limits) fun d => ∃ m,
      ControlFlowPackage limits d.function m ∧
        encodedOf .controlFlow m (writeControlFlow d.function) = ⟨d.metadata, bytes⟩ := by
  unfold decodePortableControlFlow
  refine Settles.congr ((settles_parseEnvelope bytes limits).bind fun envelope henvelope =>
    Settles.requireThen fun _ =>
    (settles_readBody reads_controlFlow (((settles_parseEnvelope bytes limits).exact _).mpr
      henvelope)).bind fun p _ => (settles_rejecting _).bind fun _ _ => Settles.pure _) fun d => ?_
  constructor
  · rintro ⟨_, ⟨kind, m, body, hok, rfl, rfl⟩, rfl, ⟨f, _⟩, ⟨⟨hf, hbody⟩, -⟩, _, hverify, rfl⟩
    rw [drop_body] at hbody
    subst hbody
    exact ⟨m, ⟨hverify, hf, hok⟩, rfl⟩
  · rintro ⟨m, ⟨hverify, hf, hok⟩, hencoded⟩
    obtain ⟨metadata, f⟩ := d
    obtain ⟨rfl, rfl⟩ : _ = metadata ∧ _ = bytes := by simpa [encodedOf] using hencoded
    exact ⟨_, ⟨_, _, _, hok, rfl, rfl⟩, rfl, (f, _), ⟨⟨hf, drop_body _ _ _⟩, rfl⟩, (),
      hverify, rfl⟩

/-! ## Round trips -/

/-- Manifests with the same counts and the same other words are equal. -/
lemma manifest_eq {m m' : Manifest} {p k : Nat} {t : SideTables} (h : Counts m p k t)
    (h' : Counts m' p k t) (hschema : m.schema = m'.schema)
    (hblocks : m.blocks = m'.blocks ∧
      m.blockInstructionReferences = m'.blockInstructionReferences ∧
      m.edgeArguments = m'.edgeArguments)
    (hends : m.returnValue = m'.returnValue ∧ m.entryBlock = m'.entryBlock)
    (hreserved : m.reserved0 = 0 ∧ m.reserved1 = 0 ∧ m.reserved2 = 0 ∧ m.reserved3 = 0)
    (hreserved' : m'.reserved0 = 0 ∧ m'.reserved1 = 0 ∧ m'.reserved2 = 0 ∧ m'.reserved3 = 0) :
    m = m' := by
  have hword : ∀ {v w : BitVec 32} {n : Nat}, v.toNat = n → w.toNat = n → v = w := by
    intro v w n hv hw
    exact BitVec.eq_of_toNat_eq (hv.trans hw.symm)
  have hcounts := And.intro (hword h.1 h'.1) <| And.intro (hword h.2 h'.2) <|
    And.intro (hword h.3 h'.3) <| And.intro (hword h.4 h'.4) <| And.intro (hword h.5 h'.5) <|
    And.intro (hword h.6 h'.6) <| And.intro (hword h.7 h'.7) <| And.intro (hword h.8 h'.8) <|
    And.intro (hword h.9 h'.9) <| And.intro (hword h.10 h'.10) <| And.intro (hword h.11 h'.11) <|
    And.intro (hword h.12 h'.12) <| And.intro (hword h.13 h'.13) (hword h.14 h'.14)
  cases m
  cases m'
  simp_all

/-- A function has one manifest. -/
lemma FunctionPackage.manifest_unique {limits limits' : PortableIrLimits} {f : Function}
    {m m' : Manifest} (h : FunctionPackage limits f m) (h' : FunctionPackage limits' f m') :
    m = m' := by
  obtain ⟨hb, hr, he, hentry⟩ := validateManifestLimits_function h.envelope.withinLimits
  obtain ⟨hb', hr', he', hentry'⟩ := validateManifestLimits_function h'.envelope.withinLimits
  refine manifest_eq
    (counts_of_tablesOk h.function.parameterTypes.1 h.function.nodes.1 h.function.tables)
    (counts_of_tablesOk h'.function.parameterTypes.1 h'.function.nodes.1 h'.function.tables)
    (h.envelope.schema.trans h'.envelope.schema.symm)
    ⟨hb.trans hb'.symm, hr.trans hr'.symm, he.trans he'.symm⟩ ⟨?_, hentry.trans hentry'.symm⟩
    h.envelope.reserved h'.envelope.reserved
  rw [← h.function.returnValue, ← h'.function.returnValue]

/-- A graph has one manifest. -/
lemma ControlFlowPackage.manifest_unique {limits limits' : PortableIrLimits}
    {f : ControlFlowFunction} {m m' : Manifest} (h : ControlFlowPackage limits f m)
    (h' : ControlFlowPackage limits' f m') : m = m' := by
  obtain ⟨hreturn, -⟩ := validateManifestLimits_controlFlow h.envelope.withinLimits
  obtain ⟨hreturn', -⟩ := validateManifestLimits_controlFlow h'.envelope.withinLimits
  have hblocks := h.function.blocks
  have hblocks' := h'.function.blocks
  refine manifest_eq
    (counts_of_tablesOk h.function.parameterTypes.1 h.function.nodes.1 h.function.tables)
    (counts_of_tablesOk h'.function.parameterTypes.1 h'.function.nodes.1 h'.function.tables)
    (h.envelope.schema.trans h'.envelope.schema.symm) ⟨?_, ?_, ?_⟩
    ⟨hreturn.trans hreturn'.symm, ?_⟩ h.envelope.reserved h'.envelope.reserved
  · exact BitVec.eq_of_toNat_eq (hblocks.length.symm.trans hblocks'.length)
  · exact BitVec.eq_of_toNat_eq (hblocks.references.symm.trans hblocks'.references)
  · exact BitVec.eq_of_toNat_eq (hblocks.edges.symm.trans hblocks'.edges)
  · rw [← h.function.entryBlock, ← h'.function.entryBlock]

/-- The straight-line decoder accepts exactly what the encoder writes. -/
lemma decodePortableFunction_iff {bytes : List Byte} {limits : PortableIrLimits}
    {d : PortableFunctionDecodeResult} :
    decodePortableFunction bytes limits = .ok d ↔
      encodePortableFunction d.function limits = .ok ⟨d.metadata, bytes⟩ := by
  rw [(settles_decodePortableFunction bytes limits).exact,
    (settles_encodePortableFunction d.function limits).exact]
  simp only [eq_comm]

/-- The control-flow decoder accepts exactly what the encoder writes. -/
lemma decodePortableControlFlow_iff {bytes : List Byte} {limits : PortableIrLimits}
    {d : PortableControlFlowDecodeResult} :
    decodePortableControlFlow bytes limits = .ok d ↔
      encodePortableControlFlow d.function limits = .ok ⟨d.metadata, bytes⟩ := by
  rw [(settles_decodePortableControlFlow bytes limits).exact,
    (settles_encodePortableControlFlow d.function limits).exact]
  simp only [eq_comm]

/-- **Round trip**: what the encoder produces under some limits, the decoder reads back under the
same limits, as the same function. -/
theorem decode_encode_portableIr (limits : PortableIrLimits) :
    (∀ f r, encodePortableFunction f limits = .ok r →
      decodePortableFunction r.bytes limits = .ok ⟨r.metadata, f⟩) ∧
    ∀ f r, encodePortableControlFlow f limits = .ok r →
      decodePortableControlFlow r.bytes limits = .ok ⟨r.metadata, f⟩ := by
  refine ⟨fun f r h => ?_, fun f r h => ?_⟩
  · exact decodePortableFunction_iff.mpr h
  · exact decodePortableControlFlow_iff.mpr h

/-- A function of one parameter and one sum. -/
def sumSample : Function where
  parameterTypes := [.word]
  nodes :=
    [{ opcode := .parameter },
     { opcode := .op (.binary .add), lhs := ⟨0⟩, rhs := ⟨0⟩ }]
  returnValue := ⟨1⟩

/-- A graph whose entry jumps to a block that returns its parameter. -/
def jumpSample : ControlFlowFunction where
  parameterTypes := [.word]
  entryBlock := ⟨0⟩
  nodes := [{ opcode := .parameter }, { opcode := .blockParameter }]
  blocks :=
    [{ parameters := [⟨0⟩], instructions := [⟨0⟩], terminator := .jump ⟨⟨1⟩, [⟨0⟩]⟩ },
     { parameters := [⟨1⟩], instructions := [⟨1⟩], terminator := .ret ⟨1⟩ }]

lemma isOk_iff_exists {ε α : Type} {x : Except ε α} : x.isOk = true ↔ ∃ a, x = .ok a := by
  cases x <;> simp [Except.isOk, Except.toBool]

lemma sumSample_encodes : ∃ r, encodePortableFunction sumSample {} = .ok r :=
  isOk_iff_exists.mp (by decide +kernel)

lemma jumpSample_encodes : ∃ r, encodePortableControlFlow jumpSample {} = .ok r :=
  isOk_iff_exists.mp (by decide +kernel)

/-- The packages of the sum and of the jump are decoded to what they were encoded from. -/
theorem decode_encode_portableIr_samples :
    (∃ r, encodePortableFunction sumSample {} = .ok r ∧
      decodePortableFunction r.bytes {} = .ok ⟨r.metadata, sumSample⟩) ∧
    ∃ r, encodePortableControlFlow jumpSample {} = .ok r ∧
      decodePortableControlFlow r.bytes {} = .ok ⟨r.metadata, jumpSample⟩ := by
  obtain ⟨r, hr⟩ := sumSample_encodes
  obtain ⟨r', hr'⟩ := jumpSample_encodes
  exact ⟨⟨r, hr, (decode_encode_portableIr {}).1 sumSample r hr⟩,
    r', hr', (decode_encode_portableIr {}).2 jumpSample r' hr'⟩

/-- **Packages are canonical**: encoding a decoded function gives back the very bytes it was decoded
from, and different packages, under whatever limits they are accepted, hold different functions. -/
theorem encode_decode_portableIr :
    (∀ bytes limits d, decodePortableFunction bytes limits = .ok d →
      encodePortableFunction d.function limits = .ok ⟨d.metadata, bytes⟩) ∧
    (∀ bytes bytes' limits limits' d d', decodePortableFunction bytes limits = .ok d →
      decodePortableFunction bytes' limits' = .ok d' → bytes ≠ bytes' →
      d.function ≠ d'.function) ∧
    (∀ bytes limits d, decodePortableControlFlow bytes limits = .ok d →
      encodePortableControlFlow d.function limits = .ok ⟨d.metadata, bytes⟩) ∧
    ∀ bytes bytes' limits limits' d d', decodePortableControlFlow bytes limits = .ok d →
      decodePortableControlFlow bytes' limits' = .ok d' → bytes ≠ bytes' →
      d.function ≠ d'.function := by
  refine ⟨fun bytes limits d h => decodePortableFunction_iff.mp h, ?_,
    fun bytes limits d h => decodePortableControlFlow_iff.mp h, ?_⟩
  · intro bytes bytes' limits limits' d d' h h' hbytes hfunction
    obtain ⟨m, hm, hencoded⟩ := ((settles_decodePortableFunction _ _).exact d).mp h
    obtain ⟨m', hm', hencoded'⟩ := ((settles_decodePortableFunction _ _).exact d').mp h'
    rw [← hfunction] at hm' hencoded'
    rw [hm.manifest_unique hm', hencoded'] at hencoded
    exact hbytes (congrArg PortableIrEncodeResult.bytes hencoded).symm
  · intro bytes bytes' limits limits' d d' h h' hbytes hfunction
    obtain ⟨m, hm, hencoded⟩ := ((settles_decodePortableControlFlow _ _).exact d).mp h
    obtain ⟨m', hm', hencoded'⟩ := ((settles_decodePortableControlFlow _ _).exact d').mp h'
    rw [← hfunction] at hm' hencoded'
    rw [hm.manifest_unique hm', hencoded'] at hencoded
    exact hbytes (congrArg PortableIrEncodeResult.bytes hencoded).symm

/-- The packages of the sum and of the jump are encoded from what they are decoded to. -/
theorem encode_decode_portableIr_samples :
    (∃ r, encodePortableFunction sumSample {} = .ok r ∧
      decodePortableFunction r.bytes {} = .ok ⟨r.metadata, sumSample⟩ ∧
      encodePortableFunction sumSample {} = .ok ⟨r.metadata, r.bytes⟩) ∧
    ∃ r, encodePortableControlFlow jumpSample {} = .ok r ∧
      decodePortableControlFlow r.bytes {} = .ok ⟨r.metadata, jumpSample⟩ ∧
      encodePortableControlFlow jumpSample {} = .ok ⟨r.metadata, r.bytes⟩ := by
  obtain ⟨r, hr⟩ := sumSample_encodes
  obtain ⟨r', hr'⟩ := jumpSample_encodes
  have hd : decodePortableFunction r.bytes {} = .ok ⟨r.metadata, sumSample⟩ :=
    decodePortableFunction_iff.mpr hr
  have hd' : decodePortableControlFlow r'.bytes {} = .ok ⟨r'.metadata, jumpSample⟩ :=
    decodePortableControlFlow_iff.mpr hr'
  have he := encode_decode_portableIr.1 r.bytes {} ⟨r.metadata, sumSample⟩ hd
  have he' := encode_decode_portableIr.2.2.1 r'.bytes {} ⟨r'.metadata, jumpSample⟩ hd'
  exact ⟨⟨r, hr, hd, he⟩, r', hr', hd', he'⟩

/-- **Decoding is safe**: on every input the decoders look only at bytes of the input, compute sizes
without wrapping, and reserve no table larger than the payload. When they succeed, the reader of the
tables stands at the end of the package, the function is verified, and it calls no helper. -/
theorem decode_portableIr_safe (bytes : List Byte) (limits : PortableIrLimits) :
    ((∀ fault, decodePortableFunction bytes limits ≠ .error (.fault fault)) ∧
      ∀ d, decodePortableFunction bytes limits = .ok d →
        (∃ envelope, parseEnvelope bytes limits = .ok envelope ∧
          kBodyOffset + envelope.bodySize = bytes.length ∧
          readWindow bytes kBodyOffset envelope.bodySize (readFunction envelope.manifest) =
            .ok (d.function, envelope.bodySize)) ∧
        d.function.verify = .ok () ∧ ∀ n ∈ d.function.nodes, n.opcode ≠ .op .call) ∧
    (∀ fault, decodePortableControlFlow bytes limits ≠ .error (.fault fault)) ∧
      ∀ d, decodePortableControlFlow bytes limits = .ok d →
        (∃ envelope, parseEnvelope bytes limits = .ok envelope ∧
          kBodyOffset + envelope.bodySize = bytes.length ∧
          readWindow bytes kBodyOffset envelope.bodySize (readControlFlow envelope.manifest) =
            .ok (d.function, envelope.bodySize)) ∧
        d.function.verify = .ok () ∧ ∀ n ∈ d.function.nodes, n.opcode ≠ .op .call := by
  refine ⟨⟨(settles_decodePortableFunction bytes limits).safe, fun d h => ?_⟩,
    (settles_decodePortableControlFlow bytes limits).safe, fun d h => ?_⟩
  · obtain ⟨m, hm, hencoded⟩ := ((settles_decodePortableFunction _ _).exact d).mp h
    have hbytes : packageOf .function m (writeFunction d.function) = bytes :=
      congrArg PortableIrEncodeResult.bytes hencoded
    refine ⟨?_, hm.verified, hm.function.nodes.2⟩
    rw [← hbytes]
    exact readBody_consumes reads_function hm.envelope ⟨hm.function, rfl⟩
  · obtain ⟨m, hm, hencoded⟩ := ((settles_decodePortableControlFlow _ _).exact d).mp h
    have hbytes : packageOf .controlFlow m (writeControlFlow d.function) = bytes :=
      congrArg PortableIrEncodeResult.bytes hencoded
    refine ⟨?_, hm.verified, hm.function.nodes.2⟩
    rw [← hbytes]
    exact readBody_consumes reads_controlFlow hm.envelope ⟨hm.function, rfl⟩

/-- The packages of the sum and of the jump are decoded to verified functions without calls. -/
theorem decode_portableIr_safe_samples :
    (∃ r, encodePortableFunction sumSample {} = .ok r ∧
      decodePortableFunction r.bytes {} = .ok ⟨r.metadata, sumSample⟩ ∧
      sumSample.verify = .ok () ∧ ∀ n ∈ sumSample.nodes, n.opcode ≠ .op .call) ∧
    ∃ r, encodePortableControlFlow jumpSample {} = .ok r ∧
      decodePortableControlFlow r.bytes {} = .ok ⟨r.metadata, jumpSample⟩ ∧
      jumpSample.verify = .ok () ∧ ∀ n ∈ jumpSample.nodes, n.opcode ≠ .op .call := by
  obtain ⟨r, hr⟩ := sumSample_encodes
  obtain ⟨r', hr'⟩ := jumpSample_encodes
  have hd : decodePortableFunction r.bytes {} = .ok ⟨r.metadata, sumSample⟩ :=
    decodePortableFunction_iff.mpr hr
  have hd' : decodePortableControlFlow r'.bytes {} = .ok ⟨r'.metadata, jumpSample⟩ :=
    decodePortableControlFlow_iff.mpr hr'
  exact ⟨⟨r, hr, hd, ((decode_portableIr_safe _ _).1.2 _ hd).2⟩,
    r', hr', hd', ((decode_portableIr_safe _ _).2.2 _ hd').2⟩

end UniJit.Ir
