import UniJit.Embedding.Builder
import UniJit.Lib.Transitions

/-!
# The record of a builder handle

The handle checks a call against its own record, and the native builder is then called without
further checks. So the record has to agree with the native function (`Mirrors`), and what passes the
checks has to pass the verifier.

A call does one of a few things (`perform_cases`): it changes nothing, it makes the native function
grow by a node or a table entry that is well formed and records it (`Grows`), it gives the native
builder up after an exception, or, in one case, it fails and has counted the arguments of a call
that the native builder refused. Apart from the last, the record stays a mirror, and the native
function stays a draft in the sense of `Function.Drafted`, so that the verifier has only the sites
of the guards and safepoints left to object to (`builder_mirrors_native`).
-/

namespace UniJit.Embedding

open UniJit.Ir UniJit.Lib

/-! ## The mirror -/

/-- The operations that the interface offers and that may leave a function. -/
def isGuardOrSafepoint : Opcode → Bool
  | .op .guardWordNonzero | .op .guardFloatNonzero | .op .safepoint => true
  | _ => false

/-- The sites of the guards and safepoints of a function. -/
def guardSites (f : Function) : List Word :=
  (f.nodes.filter fun n => isGuardOrSafepoint n.opcode).map (·.immediate)

namespace BuilderHandle

/-- The record of a handle is that of its native builder. -/
structure Mirrors (b : BuilderHandle) (f : Function) : Prop where
  valueTypes : b.valueTypes = f.nodes.map (·.type)
  fastCalls : b.fastCalls = f.fastCalls
  patchCells : b.patchCells = f.patchCells.length
  callArguments : b.callArguments = f.callArguments.length

/-- The invariant of a handle, but for the count of call arguments. -/
structure Tracks (b : BuilderHandle) (f : Function) : Prop where
  valueTypes : b.valueTypes = f.nodes.map (·.type)
  fastCalls : b.fastCalls = f.fastCalls
  patchCells : b.patchCells = f.patchCells.length
  drafted : f.Drafted
  room : f.nodes.length ≤ kInvalidIndex.toNat
  scalar : ∀ n ∈ f.nodes, isScalarValueType n.type
  exits : ∀ n ∈ f.nodes, n.opcode.isRuntimeExit = true → isGuardOrSafepoint n.opcode = true
  returns : f.returnValue.valid → f.returnValue.index < f.nodes.length

/-- What a successful call adds to the native function and to the record. -/
inductive Grows (b : BuilderHandle) (f : Function) : BuilderHandle → Function → Prop
  | node {n : Node} {arguments : List Value} {o : Operation} (ho : n.opcode = .op o)
      (hroom : f.nodes.length < kInvalidIndex.toNat)
      (hunused : unusedDescriptorsOk n n.opcode.isMemory n.opcode.isAtomicAccess
        (n.opcode = .op (.atomic .compareExchange)) n.opcode.isFrame n.opcode.isObject)
      (htyped : Typed (f.withNode n arguments).toSideTables (f.earlier f.nodes.length) o n)
      (hclaims : (f.expectedAt f.nodes.length).Claims o n)
      (hadvance : (f.expectedAt f.nodes.length).advance o n =
        { f.expectedAt f.nodes.length with
          callArgument := f.callArguments.length + arguments.length })
      (hscalar : isScalarValueType n.type)
      (hexit : n.opcode.isRuntimeExit = true → isGuardOrSafepoint n.opcode = true) :
      Grows b f { b with
        implementation := some ⟨f.withNode n arguments⟩
        valueTypes := b.valueTypes ++ [n.type]
        callArguments := b.callArguments + arguments.length } (f.withNode n arguments)
  | fastCall {descriptor : FastCallDescriptor}
      (hroom : f.fastCalls.length < kInvalidIndex.toNat)
      (hreturn : isScalarValueType descriptor.returnType)
      (hparameters : ∀ type ∈ descriptor.parameterTypes, isScalarValueType type) :
      Grows b f { b with
        implementation := some ⟨{ f with fastCalls := f.fastCalls ++ [descriptor] }⟩
        fastCalls := b.fastCalls ++ [descriptor] }
        { f with fastCalls := f.fastCalls ++ [descriptor] }
  | patchCell {cell : PatchCellDescriptor}
      (hroom : f.patchCells.length < kInvalidIndex.toNat) :
      Grows b f { b with
        implementation := some ⟨{ f with patchCells := f.patchCells ++ [cell] }⟩
        patchCells := b.patchCells + 1 }
        { f with patchCells := f.patchCells ++ [cell] }
  | returns {value : Value} (hlt : value.index < f.nodes.length) :
      Grows b f { b with implementation := some ⟨{ f with returnValue := value }⟩ }
        { f with returnValue := value }

variable {b b' : BuilderHandle} {f f' : Function}

/-- Growth keeps the invariant. -/
lemma Tracks.grows (h : b.Tracks f) (hgrows : Grows b f b' f') : b'.Tracks f' := by
  cases hgrows with
  | @node n arguments o ho hroom hunused htyped hclaims hadvance hscalar hexit =>
      refine ⟨?_, h.fastCalls, h.patchCells,
        h.drafted.append ho hunused htyped hclaims hadvance, ?_, ?_, ?_, ?_⟩
      · simp [h.valueTypes, Function.withNode]
      · simp only [Function.withNode, List.length_append, List.length_singleton]
        omega
      · intro m hm
        rcases List.mem_append.mp hm with hm | hm
        · exact h.scalar m hm
        · rwa [List.mem_singleton.mp hm]
      · intro m hm
        rcases List.mem_append.mp hm with hm | hm
        · exact h.exits m hm
        · rwa [List.mem_singleton.mp hm]
      · intro hvalid
        have hlt := h.returns hvalid
        simp only [Function.withNode, List.length_append]
        omega
  | @fastCall descriptor hroom hreturn hparameters =>
      have hsound := h.drafted.tables
      refine ⟨h.valueTypes, by simp [h.fastCalls], h.patchCells, ?_, h.room, h.scalar, h.exits,
        h.returns⟩
      refine h.drafted.retable (t := { f.toSideTables with
        fastCalls := f.fastCalls ++ [descriptor] }) ?_ ?_ rfl rfl rfl rfl rfl rfl
      · exact { SideTables.Extends.refl f.toSideTables with
          fastCalls := List.prefix_append _ _ }
      · refine ⟨?_, hsound.frameSlots, hsound.trustedObjects, ?_⟩
        · obtain ⟨h₁, h₂, h₃, h₄, -⟩ := hsound.indexRanges
          refine ⟨h₁, h₂, h₃, h₄, ?_⟩
          simp only [List.length_append, List.length_singleton]
          omega
        · intro call hcall
          rcases List.mem_append.mp hcall with hcall | hcall
          · exact hsound.fastCalls call hcall
          · obtain rfl := List.mem_singleton.mp hcall
            exact ⟨hreturn, hparameters⟩
  | @patchCell cell hroom =>
      have hsound := h.drafted.tables
      refine ⟨h.valueTypes, h.fastCalls, by simp [h.patchCells], ?_, h.room, h.scalar, h.exits,
        h.returns⟩
      refine h.drafted.retable (t := { f.toSideTables with
        patchCells := f.patchCells ++ [cell] }) ?_ ?_ rfl rfl rfl rfl rfl rfl
      · exact { SideTables.Extends.refl f.toSideTables with
          patchCells := List.prefix_append _ _ }
      · refine ⟨?_, hsound.frameSlots, hsound.trustedObjects, hsound.fastCalls⟩
        obtain ⟨h₁, h₂, h₃, h₄, h₅⟩ := hsound.indexRanges
        refine ⟨h₁, h₂, h₃, ?_, h₅⟩
        simp only [List.length_append, List.length_singleton]
        omega
  | returns hlt =>
      exact ⟨h.valueTypes, h.fastCalls, h.patchCells,
        h.drafted.withReturn _, h.room, h.scalar, h.exits, fun _ => hlt⟩

/-- Growth counts the call arguments that it adds. -/
lemma Grows.callArguments (hgrows : Grows b f b' f')
    (h : b.callArguments = f.callArguments.length) :
    b'.callArguments = f'.callArguments.length := by
  cases hgrows with
  | node => simp [Function.withNode, h]
  | _ => exact h

/-- A returned value that was named stays valid. -/
lemma Grows.returnValue (hgrows : Grows b f b' f') (h : b.Tracks f) (hvalid : f.returnValue.valid) :
    f'.returnValue.valid := by
  cases hgrows with
  | returns hlt => exact Value.valid_of_index_lt (lt_of_lt_of_le hlt h.room)
  | _ => exact hvalid

lemma Grows.implementation (hgrows : Grows b f b' f') : b'.implementation = some ⟨f'⟩ := by
  cases hgrows <;> rfl

/-! ## What a call can do -/

/-- Every result of a successful traversal comes from an item. -/
lemma mem_of_mapM_eq_ok {α β ε : Type} {g : α → Except ε β} {as : List α} {bs : List β}
    (h : as.mapM g = .ok bs) : ∀ b ∈ bs, ∃ a ∈ as, g a = .ok b := by
  induction as generalizing bs with
  | nil =>
      obtain rfl := pure_eq_ok.mp h
      simp
  | cons a as ih =>
      simp only [List.mapM_cons, bind_eq_ok, pure_eq_ok] at h
      obtain ⟨b, hb, rest, hrest, rfl⟩ := h
      intro b' hb'
      rcases List.mem_cons.mp hb' with rfl | hb'
      · exact ⟨a, List.mem_cons_self, hb⟩
      · obtain ⟨a', ha', heq⟩ := ih hrest b' hb'
        exact ⟨a', List.mem_cons_of_mem a ha', heq⟩

/-- A successful traversal gives one result for each item. -/
lemma length_of_mapM_eq_ok {α β ε : Type} {g : α → Except ε β} {as : List α} {bs : List β}
    (h : as.mapM g = .ok bs) : bs.length = as.length := by
  induction as generalizing bs with
  | nil =>
      obtain rfl := pure_eq_ok.mp h
      rfl
  | cons a as ih =>
      simp only [List.mapM_cons, bind_eq_ok, pure_eq_ok] at h
      obtain ⟨b, -, rest, hrest, rfl⟩ := h
      simp [ih hrest]

section outcomes

variable {frame : CallFrame}

/-- A fast call that passes all checks of the handle, and would bring the call arguments of the
native function out of their index range. -/
def Overflows (b : BuilderHandle) (f : Function) (frame : CallFrame) (c : BuilderCall) : Prop :=
  ∃ slot arguments count output made, c = .fastCall slot arguments count output ∧
    b.fastCallChecks frame slot arguments count output = .ok made ∧
    kInvalidIndex.toNat < f.callArguments.length + count.toNat

/-- The answers of a call other than `finish`. -/
inductive Outcome (b : BuilderHandle) (f : Function) (frame : CallFrame) (c : BuilderCall) :
    Answer → Prop
  | unchanged (answer : Except Failure Output) : Outcome b f frame c (answer, b)
  | grown {output : Output} {b' : BuilderHandle} {f' : Function} (h : Grows b f b' f') :
      Outcome b f frame c (.ok output, b')
  | abandoned {failure : Failure} (h : frame.native ≠ none) :
      Outcome b f frame c (.error failure, { b with implementation := none })
  | miscounted {failure : Failure} {count : Nat} (h : Overflows b f frame c) :
      Outcome b f frame c (.error failure, { b with callArguments := b.callArguments + count })

variable {c : BuilderCall}

/-- The checks of a call change nothing. -/
lemma Outcome.checked {α : Type} {checks : Except Failure α} {act : α → Answer}
    (h : ∀ a, checks = .ok a → Outcome b f frame c (act a)) :
    Outcome b f frame c (b.checked checks act) := by
  cases hchecks : checks with
  | error failure => exact .unchanged _
  | ok a => exact h a hchecks

/-- The first check passes exactly on a live handle when its condition holds. -/
lemma requireBuilder_eq_ok {condition : Prop} [Decidable condition] {error : AbiError}
    {implementation : FunctionBuilder} :
    b.requireBuilder frame condition error = .ok implementation ↔
      frame.nullBuilder = false ∧ b.implementation = some implementation ∧ condition := by
  unfold requireBuilder
  cases frame.nullBuilder with
  | true => simp
  | false =>
      cases b.implementation with
      | none => simp
      | some i => by_cases hcondition : condition <;> simp [hcondition]

lemma mayThrow_eq_ok {exception : Option Exception} {u : Unit} :
    mayThrow exception = .ok u ↔ exception = none := by
  cases exception <;> simp [mayThrow]

/-- There is room for a value exactly below both limits. -/
lemma prepareValue_eq_ok {u : Unit} : b.prepareValue frame = .ok u ↔
    (b.valueTypes.length < b.maximumNodes ∧ b.valueTypes.length < kInvalidIndex.toNat) ∧
      frame.prepare = none := by
  simp only [prepareValue, require_bind_eq_ok, mayThrow_eq_ok, not_or, not_le]

/-- A value passes exactly when the handle knows it under the expected type. -/
lemma requireValue_eq_ok {value : Value} {expected : ValueType} {u : Unit} :
    b.requireValue value expected = .ok u ↔ b.valueTypes[value.index]? = some expected := by
  simp only [requireValue, require_bind_eq_ok, require_eq_ok, and_iff_right_iff_imp]
  intro h
  exact (List.getElem?_eq_some_iff.mp h).1

/-- A value that passes the check can be used by the next node. -/
lemma Tracks.earlier (h : b.Tracks f) {value : Value} {type : ValueType}
    (hvalue : b.valueTypes[value.index]? = some type) :
    f.earlier f.nodes.length value = some type := by
  have hlt : value.index < f.nodes.length := by
    simpa [h.valueTypes] using (List.getElem?_eq_some_iff.mp hvalue).1
  rw [Function.earlier, if_pos ⟨Value.valid_of_index_lt (lt_of_lt_of_le hlt h.room), hlt⟩]
  simpa [h.valueTypes] using hvalue

/-- An exit without side tables is a guard or a safepoint. -/
lemma exit_of_plain {o : Operation} (hplain : o.usesTables = false)
    (hexit : (Opcode.op o).isRuntimeExit = true) : isGuardOrSafepoint (.op o) = true := by
  cases o <;> simp_all [Operation.usesTables, Opcode.isRuntimeExit, Opcode.operation?,
    Operation.isRuntimeExit, isGuardOrSafepoint]

/-- The native builder makes a value, and the handle records it. -/
lemma Outcome.makeValue (h : b.Tracks f) (hroom : b.valueTypes.length < kInvalidIndex.toNat)
    (o : Operation) {n : Node} {type : ValueType} {write : Bool} (ho : n.opcode = .op o)
    (hplain : o.usesTables = false)
    (hunused : n.memoryAccess = kInvalidIndex ∧ n.atomicAccess = kInvalidIndex ∧
      n.auxiliary = .invalid ∧ n.frameSlot = kInvalidIndex ∧ n.trustedObject = kInvalidIndex)
    (htyped : Typed f.toSideTables (f.earlier f.nodes.length) o n)
    (hscalar : isScalarValueType n.type) (htype : type = n.type) :
    Outcome b f frame c (b.makeValue frame (FunctionBuilder.append ⟨f⟩ n) type write) := by
  have hlength : b.valueTypes.length = f.nodes.length := by simp [h.valueTypes]
  rw [hlength] at hroom
  unfold BuilderHandle.makeValue
  split
  · exact .unchanged _
  · rw [FunctionBuilder.append_eq hroom, finishValue, if_neg]
    · subst htype
      obtain ⟨hmemory, hatomic, hauxiliary, hframe, hobject⟩ := hunused
      have hnone : ¬ n.auxiliary.valid := by
        rw [hauxiliary]
        exact not_valid_invalid
      refine .grown (Grows.node ho hroom ⟨.inr hmemory, .inr hatomic, .inr hnone, .inr hframe,
        .inr hobject⟩ ?_ (Expected.claims_of_plain hplain) ?_ hscalar ?_)
      · exact htyped.mono (Function.extends_withNode f n []) fun _ _ hv => hv
      · rw [Expected.advance_of_plain hplain, h.drafted.claimed]
        rfl
      · rw [ho]
        exact exit_of_plain hplain
    · rw [not_or, not_not, not_not]
      exact ⟨Value.valid_ofIndex hroom, by rw [Value.index_ofIndex hroom, hlength]⟩

/-- What appending a word constant may do. -/
lemma wordConstant_outcome (h : b.Tracks f) (hb : b.implementation = some ⟨f⟩) (bits : Word)
    (output : Bool) : Outcome b f frame c (b.wordConstant frame bits output) := by
  refine Outcome.checked fun implementation hchecks => ?_
  simp only [bind_eq_ok, requireBuilder_eq_ok, prepareValue_eq_ok, pure_eq_ok, hb] at hchecks
  obtain ⟨i, ⟨-, heq, -⟩, _, ⟨⟨-, hroom⟩, -⟩, rfl⟩ := hchecks
  obtain rfl := Option.some.inj heq
  refine Outcome.makeValue h hroom .constant rfl rfl ⟨rfl, rfl, rfl, rfl, rfl⟩ ?_ rfl rfl
  exact ⟨rfl, ⟨not_valid_invalid, not_valid_invalid⟩, rfl, rfl⟩

/-- What appending a Float64 constant may do. -/
lemma float64ConstantBits_outcome (h : b.Tracks f) (hb : b.implementation = some ⟨f⟩) (bits : Word)
    (output : Bool) : Outcome b f frame c (b.float64ConstantBits frame bits output) := by
  refine Outcome.checked fun implementation hchecks => ?_
  simp only [bind_eq_ok, requireBuilder_eq_ok, prepareValue_eq_ok, pure_eq_ok, hb] at hchecks
  obtain ⟨i, ⟨-, heq, -⟩, _, ⟨⟨-, hroom⟩, -⟩, rfl⟩ := hchecks
  obtain rfl := Option.some.inj heq
  refine Outcome.makeValue h hroom .constant rfl rfl ⟨rfl, rfl, rfl, rfl, rfl⟩ ?_ rfl rfl
  exact ⟨rfl, ⟨not_valid_invalid, not_valid_invalid⟩, rfl, rfl⟩

/-- The operation codes stand for the operations of the native builder, and the types that the
handle checks and records are those of the operation. -/
lemma binaryOperation_eq_some {operation : Nat} {type : ValueType}
    {native : FunctionBuilder → Value → Value → Value × FunctionBuilder}
    (h : binaryOperation operation = some (native, type)) :
    ∃ o, native = (fun b lhs rhs => b.appendBinary o lhs rhs) ∧ type = binaryResultType o ∧
      binaryInputType operation = binaryOperandType o := by
  unfold binaryOperation at h
  split at h
  all_goals first
    | (obtain ⟨rfl, rfl⟩ := Prod.mk.inj (Option.some.inj h); exact ⟨_, rfl, rfl, rfl⟩)
    | simp at h

/-- What appending a binary operation may do. -/
lemma binary_outcome (h : b.Tracks f) (hb : b.implementation = some ⟨f⟩) (operation : BitVec 32)
    (lhs rhs : Value) (output : Bool) :
    Outcome b f frame c (b.binary frame operation lhs rhs output) := by
  refine Outcome.checked fun made hchecks => ?_
  simp only [bind_eq_ok, requireBuilder_eq_ok, requireValue_eq_ok, prepareValue_eq_ok, hb]
    at hchecks
  obtain ⟨i, ⟨-, heq, -⟩, _, hlhs, _, hrhs, _, ⟨⟨-, hroom⟩, -⟩, hoperation⟩ := hchecks
  obtain rfl := Option.some.inj heq
  split at hoperation
  · simp at hoperation
  next native type hcode =>
    obtain rfl := pure_eq_ok.mp hoperation
    obtain ⟨o, rfl, rfl, hinput⟩ := binaryOperation_eq_some hcode
    rw [hinput] at hlhs hrhs
    refine Outcome.makeValue h hroom (.binary o) rfl rfl ⟨rfl, rfl, rfl, rfl, rfl⟩ ?_ ?_ ?_
    · refine ⟨⟨?_, h.earlier hlhs, h.earlier hrhs⟩, rfl, rfl⟩
      cases o <;> rfl
    · cases o <;> rfl
    · cases o <;> rfl

/-- What appending a unary operation may do. -/
lemma unary_outcome (h : b.Tracks f) (hb : b.implementation = some ⟨f⟩) (operation : BitVec 32)
    (input : Value) (output : Bool) :
    Outcome b f frame c (b.unary frame operation input output) := by
  refine Outcome.checked fun made hchecks => ?_
  simp only [bind_eq_ok, requireBuilder_eq_ok, requireValue_eq_ok, prepareValue_eq_ok, hb]
    at hchecks
  obtain ⟨i, ⟨-, heq, -⟩, _, hinput, _, ⟨⟨-, hroom⟩, -⟩, hoperation⟩ := hchecks
  obtain rfl := Option.some.inj heq
  split at hoperation
  · simp at hoperation
  next native hcode =>
    obtain rfl := pure_eq_ok.mp hoperation
    unfold unaryOperation at hcode
    split at hcode
    next hzero =>
      obtain rfl := Option.some.inj hcode
      rw [hzero] at hinput ⊢
      exact Outcome.makeValue h hroom (.unary .negate) rfl rfl ⟨rfl, rfl, rfl, rfl, rfl⟩
        ⟨h.earlier hinput, not_valid_invalid, rfl, rfl, rfl, rfl⟩ rfl rfl
    next hone =>
      obtain rfl := Option.some.inj hcode
      rw [hone] at hinput ⊢
      exact Outcome.makeValue h hroom (.unary .bitwiseNot) rfl rfl ⟨rfl, rfl, rfl, rfl, rfl⟩
        ⟨h.earlier hinput, not_valid_invalid, rfl, rfl, rfl, rfl⟩ rfl rfl
    next htwo =>
      obtain rfl := Option.some.inj hcode
      rw [htwo] at hinput ⊢
      exact Outcome.makeValue h hroom (.unary .floatNegate) rfl rfl ⟨rfl, rfl, rfl, rfl, rfl⟩
        ⟨h.earlier hinput, not_valid_invalid, rfl, rfl, rfl, rfl⟩ rfl rfl
    next => simp at hcode

/-- A word up to the largest signed one is not negative. -/
lemma toInt_nonneg {x : Word} (h : x.toNat ≤ maximumWord) : 0 ≤ x.toInt := by
  have hmax : maximumWord = 2 ^ 63 - 1 := rfl
  rw [BitVec.toInt_eq_toNat_of_lt (by omega)]
  omega

/-- What appending a guard may do. -/
lemma guardNonzero_outcome (h : b.Tracks f) (hb : b.implementation = some ⟨f⟩) (input : Value)
    (site : BitVec 64) : Outcome b f frame c (b.guardNonzero frame input site) := by
  refine Outcome.checked fun made hchecks => ?_
  simp only [bind_eq_ok, requireBuilder_eq_ok, prepareValue_eq_ok, hb] at hchecks
  obtain ⟨i, ⟨-, heq, -, hsite⟩, _, ⟨⟨-, hroom⟩, -⟩, hmade⟩ := hchecks
  obtain rfl := Option.some.inj heq
  have hnonneg : 0 ≤ (BitVec.ofNat 64 site.toNat).toInt := by
    rw [BitVec.ofNat_toNat, BitVec.setWidth_eq]
    exact toInt_nonneg (not_lt.mp hsite)
  split at hmade
  next hword =>
    obtain rfl := pure_eq_ok.mp hmade
    rw [FunctionBuilder.guardWordNonzero, FunctionBuilder.appendExit, if_neg hsite]
    exact Outcome.makeValue h hroom .guardWordNonzero rfl rfl ⟨rfl, rfl, rfl, rfl, rfl⟩
      ⟨hnonneg, rfl, h.earlier hword, not_valid_invalid, rfl, rfl⟩ rfl rfl
  next hfloat =>
    obtain rfl := pure_eq_ok.mp hmade
    rw [FunctionBuilder.guardFloat64Nonzero, FunctionBuilder.appendExit, if_neg hsite]
    exact Outcome.makeValue h hroom .guardFloatNonzero rfl rfl ⟨rfl, rfl, rfl, rfl, rfl⟩
      ⟨hnonneg, rfl, h.earlier hfloat, not_valid_invalid, rfl, rfl⟩ rfl rfl
  next => simp at hmade

/-- What appending a safepoint may do. -/
lemma safepoint_outcome (h : b.Tracks f) (hb : b.implementation = some ⟨f⟩) (site : BitVec 64) :
    Outcome b f frame c (b.safepoint frame site) := by
  refine Outcome.checked fun made hchecks => ?_
  simp only [bind_eq_ok, requireBuilder_eq_ok, prepareValue_eq_ok, pure_eq_ok, hb] at hchecks
  obtain ⟨i, ⟨-, heq, hsite⟩, _, ⟨⟨-, hroom⟩, -⟩, rfl⟩ := hchecks
  obtain rfl := Option.some.inj heq
  rw [FunctionBuilder.safepoint, FunctionBuilder.appendExit, if_neg hsite]
  refine Outcome.makeValue h hroom .safepoint rfl rfl ⟨rfl, rfl, rfl, rfl, rfl⟩ ?_ rfl rfl
  refine ⟨?_, rfl, ⟨not_valid_invalid, not_valid_invalid⟩, rfl, rfl⟩
  rw [BitVec.ofNat_toNat, BitVec.setWidth_eq]
  exact toInt_nonneg (not_lt.mp hsite)

/-- What appending a read of a patch cell may do. -/
lemma loadPatchCell_outcome (h : b.Tracks f) (hb : b.implementation = some ⟨f⟩) (slot : BitVec 32)
    (output : Bool) : Outcome b f frame c (b.loadPatchCell frame slot output) := by
  refine Outcome.checked fun made hchecks => ?_
  simp only [bind_eq_ok, requireBuilder_eq_ok, prepareValue_eq_ok, pure_eq_ok, hb] at hchecks
  obtain ⟨i, ⟨-, heq, -, hslot⟩, _, ⟨⟨-, hroom⟩, -⟩, rfl⟩ := hchecks
  obtain rfl := Option.some.inj heq
  have hcell : (slot.setWidth 64).toNat = slot.toNat := BitVec.toNat_setWidth_of_le (by decide)
  have hlt := slot.isLt
  refine Outcome.makeValue h hroom .loadPatchCell rfl rfl ⟨rfl, rfl, rfl, rfl, rfl⟩ ?_ rfl rfl
  refine ⟨?_, ?_, rfl, ⟨not_valid_invalid, not_valid_invalid⟩, rfl, rfl⟩
  · apply toInt_nonneg
    rw [hcell]
    simp only [maximumWord]
    omega
  · rw [hcell, ← h.patchCells]
    exact hslot

/-- What asking for a parameter may do. -/
lemma parameter_outcome (index : BitVec 64) (output : Bool) :
    Outcome b f frame c (b.parameter frame index output) := by
  refine Outcome.checked fun i _ => ?_
  dsimp only
  split_ifs <;> exact .unchanged _

/-- What naming the returned value may do. -/
lemma setReturn_outcome (hb : b.implementation = some ⟨f⟩) (value : Value) :
    Outcome b f frame c (b.setReturn frame value) := by
  refine Outcome.checked fun i hchecks => ?_
  obtain ⟨-, heq, hlt⟩ := requireBuilder_eq_ok.mp hchecks
  rw [hb] at heq
  obtain rfl := Option.some.inj heq
  split
  · exact .unchanged _
  next made hreturn =>
    simp only [FunctionBuilder.setReturn, require_bind_eq_ok, pure_eq_ok] at hreturn
    obtain ⟨⟨-, hindex⟩, -, rfl⟩ := hreturn
    exact .grown (.returns hindex)

/-- An index inside its range survives in 32 bits. -/
lemma toNat_ofNat_index {n : Nat} (h : n ≤ kInvalidIndex.toNat) :
    (BitVec.ofNat 32 n).toNat = n := by
  have hmax : kInvalidIndex.toNat = 2 ^ 32 - 1 := by decide
  rw [BitVec.toNat_ofNat]
  omega

/-- What declaring a patch cell may do. -/
lemma declarePatchCell_outcome (h : b.Tracks f) (hb : b.implementation = some ⟨f⟩)
    (initialValue : Word) (kind : BitVec 32) (output : Bool) :
    Outcome b f frame c (b.declarePatchCell frame initialValue kind output) := by
  refine Outcome.checked fun made hchecks => ?_
  simp only [bind_eq_ok, requireBuilder_eq_ok, hb] at hchecks
  obtain ⟨i, ⟨-, heq, -⟩, hmade⟩ := hchecks
  obtain rfl := Option.some.inj heq
  split at hmade
  · simp at hmade
  next nativeKind hkind =>
    simp only [bind_eq_ok, pure_eq_ok] at hmade
    obtain ⟨_, -, rfl⟩ := hmade
    unfold FunctionBuilder.createPatchCell
    split_ifs with hroom
    · dsimp only
      rw [if_pos (.inl rfl), ← hb]
      exact .unchanged _
    · have hslot : ¬ (BitVec.ofNat 32 f.patchCells.length = kInvalidIndex ∨
          (BitVec.ofNat 32 f.patchCells.length).toNat ≠ b.patchCells) := by
        rw [not_or, not_not, toNat_ofNat_index (not_le.mp hroom).le, h.patchCells]
        exact ⟨Value.valid_ofIndex (not_le.mp hroom), rfl⟩
      dsimp only
      rw [if_neg hslot]
      exact .grown (.patchCell (not_le.mp hroom))

/-- The types of the interface are scalar. -/
lemma valueTypeFromC_scalar {input : BitVec 32} {type : ValueType}
    (h : valueTypeFromC input = some type) : isScalarValueType type := by
  unfold valueTypeFromC at h
  split_ifs at h
  · obtain rfl := Option.some.inj h
    rfl
  · obtain rfl := Option.some.inj h
    rfl

/-- Types taken from C are scalars. -/
lemma valueTypesFromC_scalar {array : Option (Nat → BitVec 32)} {count : Nat} {message : String}
    {types : List ValueType} (h : valueTypesFromC array count message = .ok types) :
    ∀ type ∈ types, isScalarValueType type := by
  unfold valueTypesFromC at h
  intro type htype
  obtain ⟨index, -, heq⟩ := mem_of_mapM_eq_ok h type htype
  split at heq
  next type' hscalar =>
    obtain rfl := Except.ok.inj heq
    obtain ⟨_, -, hc⟩ := Option.bind_eq_some_iff.mp hscalar
    exact valueTypeFromC_scalar hc
  next => simp at heq

/-- What declaring a fast-call target may do. -/
lemma declareFastCall_outcome (h : b.Tracks f) (hb : b.implementation = some ⟨f⟩)
    (parameterTypes : Option (Nat → BitVec 32)) (parameterCount : BitVec 64)
    (returnType : BitVec 32) (output : Bool) :
    Outcome b f frame c
      (b.declareFastCall frame parameterTypes parameterCount returnType output) := by
  refine Outcome.checked fun made hchecks => ?_
  simp only [bind_eq_ok, requireBuilder_eq_ok, require_eq_ok, hb] at hchecks
  obtain ⟨i, ⟨-, heq, -⟩, _, -, hmade⟩ := hchecks
  obtain rfl := Option.some.inj heq
  split at hmade
  · simp at hmade
  next nativeReturn hreturn =>
    simp only [bind_eq_ok, pure_eq_ok] at hmade
    obtain ⟨_, -, types, htypes, _, -, rfl⟩ := hmade
    dsimp only
    split
    next hnative => exact .abandoned (by simp [hnative])
    next =>
      by_cases hroom : kInvalidIndex.toNat ≤ f.fastCalls.length
      · rw [FunctionBuilder.createFastCall, if_pos hroom]
        dsimp only
        rw [if_pos (.inl rfl), ← hb]
        exact .unchanged _
      · have hmax : kInvalidIndex.toNat = 2 ^ 32 - 1 := by decide
        have hslot : ¬ (BitVec.ofNat 32 f.fastCalls.length = kInvalidIndex ∨
            (BitVec.ofNat 32 f.fastCalls.length + 1).toNat ≠ b.fastCalls.length + 1) := by
          rw [not_or, not_not, h.fastCalls]
          refine ⟨Value.valid_ofIndex (not_le.mp hroom), ?_⟩
          have hone : (1 : BitVec 32).toNat = 1 := rfl
          rw [BitVec.toNat_add, toNat_ofNat_index (not_le.mp hroom).le, hone]
          omega
        rw [FunctionBuilder.createFastCall, if_neg hroom]
        dsimp only
        rw [if_neg hslot]
        exact .grown (.fastCall (not_le.mp hroom) (valueTypeFromC_scalar hreturn)
          (valueTypesFromC_scalar htypes))

/-- The arguments that pass the check have the types of the descriptor. -/
lemma Tracks.arguments (h : b.Tracks f) {arguments : List Value} {types : List ValueType}
    (hlength : arguments.length = types.length)
    (hchecked : ∀ p ∈ arguments.zip types, b.valueTypes[p.1.index]? = some p.2) :
    arguments.map (f.earlier f.nodes.length) = types.map some := by
  apply List.ext_getElem
  · simpa using hlength
  · intro i hi hi'
    simp only [List.length_map] at hi hi'
    rw [List.getElem_map, List.getElem_map]
    apply h.earlier
    exact hchecked (arguments[i], types[i]) (List.mem_iff_getElem.mpr
      ⟨i, by simp only [List.length_zip]; omega, List.getElem_zip⟩)

/-- A call through a declared slot whose arguments fit. -/
lemma Grows.fastCallNode (h : b.Tracks f) (hroom : f.nodes.length < kInvalidIndex.toNat)
    {slot : BitVec 32} {descriptor : FastCallDescriptor} {arguments : List Value}
    (hdescriptor : f.fastCalls[slot.toNat]? = some descriptor)
    (hcount : arguments.length ≤ kInvalidIndex.toNat)
    (hbegin : f.callArguments.length ≤ kInvalidIndex.toNat)
    (htypes : arguments.map (f.earlier f.nodes.length) = descriptor.parameterTypes.map some) :
    let n : Node :=
      { opcode := .op .fastCall
        immediate := slot.setWidth 64
        type := (f.fastCalls[slot.toNat]?.map (·.returnType)).getD .word
        argumentBegin := BitVec.ofNat 32 f.callArguments.length
        argumentCount := BitVec.ofNat 32 arguments.length }
    Grows b f { b with
      implementation := some ⟨f.withNode n arguments⟩
      callArguments := b.callArguments + arguments.length
      valueTypes := b.valueTypes ++ [descriptor.returnType] } (f.withNode n arguments) := by
  intro n
  have htype : n.type = descriptor.returnType := by simp [n, hdescriptor]
  have himmediate : n.immediate.toNat = slot.toNat := BitVec.toNat_setWidth_of_le (by decide)
  have hslot := slot.isLt
  have hbegin' : n.argumentBegin.toNat = f.callArguments.length := toNat_ofNat_index hbegin
  have hcount' : n.argumentCount.toNat = arguments.length := toNat_ofNat_index hcount
  rw [← htype]
  refine Grows.node (o := .fastCall) rfl hroom
    ⟨.inr rfl, .inr rfl, .inr not_valid_invalid, .inr rfl, .inr rfl⟩ ?_ ?_ ?_ ?_ ?_
  · refine ⟨⟨?_, ?_, not_valid_invalid, not_valid_invalid⟩, descriptor, arguments, ?_, ?_, htype,
      htypes⟩
    · apply toInt_nonneg
      rw [himmediate]
      simp only [maximumWord]
      omega
    · rw [himmediate]
      exact (List.getElem?_eq_some_iff.mp hdescriptor).1
    · rw [himmediate]
      exact hdescriptor
    · rw [SideTables.callArgumentsOf, hbegin', hcount', if_pos (by simp [Function.withNode])]
      simp [Function.withNode]
  · simp [Expected.Claims, hbegin', h.drafted.claimed]
  · simp [Expected.advance, hcount', h.drafted.claimed]
  · rw [htype]
    exact (h.drafted.tables.fastCalls descriptor (List.mem_of_getElem? hdescriptor)).1
  · exact fun hexit => absurd hexit (Bool.false_ne_true)

/-- What appending a fast call may do. -/
lemma fastCall_outcome (h : b.Tracks f) (hb : b.implementation = some ⟨f⟩) (slot : BitVec 32)
    (arguments : Option (Nat → Value)) (argumentCount : BitVec 64) (output : Bool) :
    Outcome b f frame (.fastCall slot arguments argumentCount output)
      (b.fastCall frame slot arguments argumentCount output) := by
  refine Outcome.checked fun made hpassed => ?_
  have hchecks := hpassed
  simp only [fastCallChecks, bind_eq_ok, requireBuilder_eq_ok, require_eq_ok, forM_eq_ok,
    requireValue_eq_ok, prepareValue_eq_ok, pure_eq_ok, hb] at hchecks
  obtain ⟨i, ⟨-, heq, -, hslot⟩, _, hcount, _, -, _, htypes, _, ⟨⟨-, hroom⟩, -⟩, rfl⟩ := hchecks
  obtain rfl := Option.some.inj heq
  set nativeArguments := (List.range argumentCount.toNat).map fun index =>
    (arguments.map (· index)).getD .invalid with hnative
  have hlength : nativeArguments.length = argumentCount.toNat := by simp [hnative]
  obtain ⟨descriptor, hdescriptor⟩ : ∃ descriptor, f.fastCalls[slot.toNat]? = some descriptor := by
    rw [h.fastCalls] at hslot
    exact ⟨_, List.getElem?_eq_getElem hslot⟩
  have hget : b.fastCalls.getD slot.toNat {} = descriptor := by
    simp [h.fastCalls, List.getD, hdescriptor]
  rw [hget] at hcount htypes ⊢
  obtain ⟨hsame, -⟩ := not_or.mp hcount
  rw [not_not] at hsame
  have hnodes : b.valueTypes.length = f.nodes.length := by simp [h.valueTypes]
  rw [hnodes] at hroom
  dsimp only
  split
  next hexception => exact .abandoned (by simp [hexception])
  next =>
    by_cases hfull : kInvalidIndex.toNat < nativeArguments.length ∨
        kInvalidIndex.toNat - nativeArguments.length < f.callArguments.length
    · -- The native builder refuses the call, and its arguments are counted all the same.
      rw [FunctionBuilder.fastCall, if_pos hfull, finishValue,
        if_pos (.inl not_valid_invalid), ← hb]
      exact .miscounted ⟨slot, arguments, argumentCount, output, _, rfl, hpassed, by omega⟩
    · obtain ⟨hargs, hspace⟩ := not_or.mp hfull
      rw [FunctionBuilder.fastCall, if_neg hfull, FunctionBuilder.append_eq hroom, finishValue,
        if_neg]
      · have hgrows := Grows.fastCallNode h hroom hdescriptor (by omega) (by omega)
          (h.arguments (by omega) htypes)
        rw [← hlength]
        exact .grown hgrows
      · rw [not_or, not_not, not_not]
        exact ⟨Value.valid_ofIndex hroom, by rw [Value.index_ofIndex hroom, hnodes]⟩

/-- **Step.** What a call other than `finish` does. -/
lemma perform_outcome (frame : CallFrame) (c : BuilderCall) (h : b.Tracks f)
    (hb : b.implementation = some ⟨f⟩) (hfinish : ∀ output, c ≠ .finish output) :
    Outcome b f frame c (b.perform frame c) := by
  cases c with
  | parameter index output => exact parameter_outcome index output
  | wordConstant bits output => exact wordConstant_outcome h hb bits output
  | float64ConstantBits bits output => exact float64ConstantBits_outcome h hb bits output
  | binary operation lhs rhs output => exact binary_outcome h hb operation lhs rhs output
  | unary operation input output => exact unary_outcome h hb operation input output
  | guardNonzero input site => exact guardNonzero_outcome h hb input site
  | safepoint site => exact safepoint_outcome h hb site
  | declareFastCall parameterTypes parameterCount returnType output =>
      exact declareFastCall_outcome h hb parameterTypes parameterCount returnType output
  | fastCall slot arguments argumentCount output =>
      exact fastCall_outcome h hb slot arguments argumentCount output
  | declarePatchCell initialValue kind output =>
      exact declarePatchCell_outcome h hb initialValue kind output
  | loadPatchCell slot output => exact loadPatchCell_outcome h hb slot output
  | setReturn value => exact setReturn_outcome hb value
  | finish output => exact absurd rfl (hfinish output)

/-- Without a native builder every call fails, and changes nothing. -/
lemma perform_of_none (frame : CallFrame) (c : BuilderCall) (hb : b.implementation = none) :
    ∃ failure, b.perform frame c = (.error failure, b) := by
  have hnone : ∀ {condition : Prop} [Decidable condition] {error : AbiError},
      b.requireBuilder frame condition error = .error (.returned error) := by
    intro condition _ error
    unfold requireBuilder
    rw [hb]
    split_ifs <;> rfl
  cases c <;> simp [perform, parameter, wordConstant, float64ConstantBits, binary, unary,
    guardNonzero, safepoint, declareFastCall, fastCall, fastCallChecks, declarePatchCell,
    loadPatchCell, setReturn, finish, hnone, BuilderHandle.checked, Bind.bind, Except.bind]

/-- A call to `finish` gives the native builder up, unless it is refused. -/
lemma finish_snd (frame : CallFrame) (output : Bool) : (b.finish frame output).2 = b ∨
    (b.finish frame output).2 = { b with implementation := none } := by
  unfold finish BuilderHandle.checked
  split
  · exact .inl rfl
  · dsimp only
    split
    · exact .inr rfl
    · split <;> exact .inr rfl

end outcomes

/-! ## Sequences of calls -/

/-- A call in a sequence. -/
def step (b : BuilderHandle) (c : CallFrame × BuilderCall) : Option BuilderHandle :=
  some (b.call c.1 c.2).2

/-- An error output that is in use stops a call before anything else. -/
lemma call_snd (frame : CallFrame) (c : BuilderCall) :
    (b.call frame c).2 = b ∨
      frame.error ≠ .occupied ∧ (b.call frame c).2 = (b.perform frame c).2 := by
  unfold call
  split
  · exact .inl rfl
  next hslot =>
    refine .inr ⟨hslot, ?_⟩
    split
    next heq => rw [heq]
    next heq => rw [heq]

/-- What a call does to a handle that tracks its native function. -/
lemma Tracks.call (h : b.Tracks f) (hb : b.implementation = some ⟨f⟩) (frame : CallFrame)
    (c : BuilderCall) :
    (b.call frame c).2 = b ∨ (b.call frame c).2.implementation = none ∨
      (∃ f', Grows b f (b.call frame c).2 f') ∨
      (frame.error ≠ .occupied ∧ Overflows b f frame c ∧ ∃ count,
        (b.call frame c).2 = { b with callArguments := b.callArguments + count }) := by
  rcases call_snd (b := b) frame c with heq | ⟨herror, heq⟩
  · exact .inl heq
  · rw [heq]
    by_cases hfinish : ∃ output, c = .finish output
    · obtain ⟨output, rfl⟩ := hfinish
      rcases finish_snd (b := b) frame output with hsame | hnone
      · exact .inl hsame
      · refine .inr (.inl ?_)
        rw [BuilderHandle.perform, hnone]
    · have houtcome := perform_outcome frame c h hb
        (fun output hc => hfinish ⟨output, hc⟩)
      generalize b.perform frame c = answer at houtcome
      cases houtcome with
      | unchanged answer => exact .inl rfl
      | grown hgrows => exact .inr (.inr (.inl ⟨_, hgrows⟩))
      | abandoned => exact .inr (.inl rfl)
      | miscounted hoverflows => exact .inr (.inr (.inr ⟨herror, hoverflows, _, rfl⟩))

/-- A spent handle is not changed by any call. -/
lemma call_of_none (hb : b.implementation = none) (frame : CallFrame) (c : BuilderCall) :
    (b.call frame c).2 = b := by
  rcases call_snd (b := b) frame c with heq | ⟨-, heq⟩
  · exact heq
  · obtain ⟨failure, hperform⟩ := perform_of_none frame c hb
    rw [heq, hperform]

/-- The native builder has room for the arguments of the call, or the call does not get to it: its
error output is in use, or one of the handle's own checks refuses it. -/
def Careful (b : BuilderHandle) (c : CallFrame × BuilderCall) : Prop :=
  c.1.error ≠ .occupied → ∀ f, b.implementation = some ⟨f⟩ → ¬ Overflows b f c.1 c.2

/-- The invariant of a handle with or without a native builder. -/
def Tracked (b : BuilderHandle) : Prop := ∀ f, b.implementation = some ⟨f⟩ → b.Tracks f

/-- The mirrored number of call arguments is the builder's own. -/
def CountsArguments (b : BuilderHandle) : Prop :=
  ∀ f, b.implementation = some ⟨f⟩ → b.callArguments = f.callArguments.length

/-- The builder's function names the value it returns. -/
def HasReturn (b : BuilderHandle) : Prop :=
  ∀ f, b.implementation = some ⟨f⟩ → f.returnValue.valid

/-- What a call can do to any handle. -/
lemma Tracked.call (h : b.Tracked) (frame : CallFrame) (c : BuilderCall) :
    (b.call frame c).2 = b ∨ (b.call frame c).2.implementation = none ∨
      ∃ f, b.implementation = some ⟨f⟩ ∧ ((∃ f', Grows b f (b.call frame c).2 f') ∨
        (frame.error ≠ .occupied ∧ Overflows b f frame c ∧ ∃ count,
          (b.call frame c).2 = { b with callArguments := b.callArguments + count })) := by
  cases hb : b.implementation with
  | none => exact .inl (call_of_none hb frame c)
  | some implementation =>
      rcases (h implementation.function hb).call hb frame c with hsame | hnone | hrest
      · exact .inl hsame
      · exact .inr (.inl hnone)
      · rw [← hb]
        exact .inr (.inr ⟨_, hb, hrest⟩)

/-- A step keeps the mirrors in step with the builder. -/
lemma Tracked.step {c : CallFrame × BuilderCall} (h : b.Tracked) (hstep : b.step c = some b') :
    b'.Tracked := by
  obtain rfl := Option.some.inj hstep
  intro f' hf'
  rcases h.call c.1 c.2 with hsame | hnone | ⟨f, hf, ⟨f'', hgrows⟩ | ⟨-, -, count, hcount⟩⟩
  · rw [hsame] at hf' ⊢
    exact h f' hf'
  · simp [hnone] at hf'
  · rw [hgrows.implementation] at hf'
    obtain rfl := FunctionBuilder.mk.inj (Option.some.inj hf')
    exact (h f hf).grows hgrows
  · rw [hcount] at hf' ⊢
    obtain ⟨h₁, h₂, h₃, h₄, h₅, h₆, h₇, h₈⟩ := h f' hf'
    exact ⟨h₁, h₂, h₃, h₄, h₅, h₆, h₇, h₈⟩

/-- A careful step keeps the number of call arguments right. -/
lemma CountsArguments.step {c : CallFrame × BuilderCall} (h : b.CountsArguments)
    (htracked : b.Tracked) (hcareful : b.Careful c) (hstep : b.step c = some b') :
    b'.CountsArguments := by
  obtain rfl := Option.some.inj hstep
  intro f' hf'
  rcases htracked.call c.1 c.2 with hsame | hnone | ⟨f, hf, ⟨f'', hgrows⟩ |
    ⟨herror, hoverflows, -⟩⟩
  · rw [hsame] at hf' ⊢
    exact h f' hf'
  · simp [hnone] at hf'
  · rw [hgrows.implementation] at hf'
    obtain rfl := FunctionBuilder.mk.inj (Option.some.inj hf')
    exact hgrows.callArguments (h f hf)
  · exact absurd hoverflows (hcareful herror f hf)

/-- A step keeps the returned value named. -/
lemma HasReturn.step {c : CallFrame × BuilderCall} (h : b.HasReturn) (htracked : b.Tracked)
    (hstep : b.step c = some b') : b'.HasReturn := by
  obtain rfl := Option.some.inj hstep
  intro f' hf'
  rcases htracked.call c.1 c.2 with hsame | hnone | ⟨f, hf, ⟨f'', hgrows⟩ | ⟨-, -, count, hcount⟩⟩
  · rw [hsame] at hf'
    exact h f' hf'
  · simp [hnone] at hf'
  · rw [hgrows.implementation] at hf'
    obtain rfl := FunctionBuilder.mk.inj (Option.some.inj hf')
    exact hgrows.returnValue (htracked f hf) (h f hf)
  · rw [hcount] at hf'
    exact h f' hf'

/-- A new handle has the parameters, and nothing else. -/
lemma create_spec {frame : CallFrame} {parameterTypes : Option (Nat → BitVec 32)}
    {parameterCount : BitVec 64} {limits : Option AbiCompilationLimits} {output : Bool}
    (hcreate : builderCreate frame parameterTypes parameterCount limits output = .ok b) :
    b.Tracked ∧ b.CountsArguments := by
  simp only [builderCreate, bind_eq_ok, require_eq_ok, pure_eq_ok] at hcreate
  obtain ⟨_, -, limits', -, _, hbounds, _, -, types, htypes, _, -, rfl⟩ := hcreate
  have hscalar := valueTypesFromC_scalar htypes
  have hlength : types.length ≤ kInvalidIndex.toNat := by
    rw [length_of_mapM_eq_ok htypes, List.length_range]
    omega
  have hnodes : (FunctionBuilder.create types).function.nodes.map (·.type) = types := by
    apply List.ext_getElem?
    intro i
    simp only [FunctionBuilder.create, List.take_of_length_le hlength, List.getElem?_map,
      List.getElem?_mapIdx, Option.map_map, Function.comp_def, Option.map_id_fun', id_eq]
  constructor
  · intro f hf
    obtain rfl : (FunctionBuilder.create types).function = f :=
      congrArg FunctionBuilder.function (Option.some.inj hf)
    refine ⟨hnodes.symm, rfl, rfl, FunctionBuilder.drafted_create hscalar, ?_, ?_, ?_, ?_⟩
    · have hcount := congrArg List.length hnodes
      rw [List.length_map] at hcount
      rw [hcount]
      exact hlength
    · intro n hn
      exact hscalar n.type (hnodes ▸ List.mem_map_of_mem hn)
    · intro n hn hexit
      simp only [FunctionBuilder.create, List.mem_mapIdx] at hn
      obtain ⟨_, _, rfl⟩ := hn
      simp [Opcode.isRuntimeExit, Opcode.operation?] at hexit
    · intro hvalid
      exact absurd hvalid not_valid_invalid
  · intro f hf
    obtain rfl : (FunctionBuilder.create types).function = f :=
      congrArg FunctionBuilder.function (Option.some.inj hf)
    rfl

/-- The sites of the guards and safepoints are all the exit sites there are. -/
lemma Tracks.guardSites_eq (h : b.Tracks f) : guardSites f = f.exitSites := by
  unfold guardSites Function.exitSites
  congr 1
  apply List.filter_congr
  intro n hn
  cases hexit : n.opcode.isRuntimeExit with
  | true => exact h.exits n hn hexit
  | false =>
      unfold isGuardOrSafepoint
      split <;> simp_all [Opcode.isRuntimeExit, Opcode.operation?, Operation.isRuntimeExit]

/-- `finish` succeeds on a function with a return value when its sites are distinct. -/
lemma Tracks.finish_iff (h : b.Tracks f) (hb : b.implementation = some ⟨f⟩)
    (hreturn : f.returnValue.valid) {frame : CallFrame} (hnull : frame.nullBuilder = false)
    (herror : frame.error ≠ .occupied) (hallocates : frame.Allocates) :
    (∃ output, (b.call frame (.finish true)).1 = .ok output) ↔ (guardSites f).Nodup := by
  have hlt := h.returns hreturn
  have hverify : f.verify = .ok () ↔ (guardSites f).Nodup := by
    rw [h.drafted.verify_eq_ok_iff, h.guardSites_eq]
    refine ⟨fun hok => hok.2.2, fun hnodup => ⟨⟨hreturn, hlt⟩, ?_, hnodup⟩⟩
    rw [Function.returnType, Function.valueType, if_pos hreturn, List.getElem?_eq_getElem hlt]
    exact h.scalar _ (List.getElem_mem hlt)
  have hchecks : b.requireBuilder frame (true = true)
      (invalid "builder or function output is null") = .ok ⟨f⟩ :=
    requireBuilder_eq_ok.mpr ⟨hnull, hb, rfl⟩
  rw [← hverify]
  have hperform : (∃ output, (b.perform frame (.finish true)).1 = .ok output) ↔
      f.verify = .ok () := by
    show (∃ output, (b.finish frame true).1 = .ok output) ↔ _
    unfold finish
    rw [hchecks]
    simp only [BuilderHandle.checked, FunctionBuilder.build]
    cases hresult : f.verify with
    | error status => simp
    | ok u => simp [hallocates.2.2]
  rw [← hperform]
  unfold BuilderHandle.call
  split
  next hoccupied => exact absurd hoccupied herror
  next =>
    cases hanswer : b.perform frame (.finish true) with
    | mk result b' => cases result <;> simp

/-- A successful call names the returned value. -/
lemma hasReturn_of_setReturn {frame : CallFrame} {value : Value} {output : Output}
    (h : b.call frame (.setReturn value) = (.ok output, b')) : b'.HasReturn := by
  have hperform : b.setReturn frame value = (.ok output, b') := by
    unfold BuilderHandle.call at h
    split at h
    · simp at h
    · split at h
      next heq =>
        obtain ⟨houtput, rfl⟩ := Prod.mk.inj h
        obtain rfl := Except.ok.inj houtput
        exact heq
      next => simp at h
  unfold setReturn BuilderHandle.checked at hperform
  split at hperform
  · simp at hperform
  · dsimp only at hperform
    split at hperform
    · simp at hperform
    next made hmade =>
      obtain ⟨-, rfl⟩ := Prod.mk.inj hperform
      simp only [FunctionBuilder.setReturn, require_bind_eq_ok, pure_eq_ok] at hmade
      obtain ⟨⟨hvalid, -⟩, -, rfl⟩ := hmade
      intro f hf
      obtain rfl := FunctionBuilder.mk.inj (Option.some.inj hf)
      exact hvalid

/-- A call that fails without an exception, and would not overflow, has changed nothing. -/
lemma Tracked.unchanged_of_error (h : b.Tracked) {frame : CallFrame} {c : BuilderCall}
    (hallocates : frame.Allocates) (hfinish : ∀ output, c ≠ .finish output)
    (hcareful : b.Careful (frame, c)) (herror : ∃ failure, (b.call frame c).1 = .error failure) :
    (b.call frame c).2 = b := by
  cases hb : b.implementation with
  | none => exact call_of_none hb frame c
  | some implementation =>
      have houtcome := perform_outcome frame c (h implementation.function hb) hb hfinish
      unfold BuilderHandle.call at herror ⊢
      split at herror
      next => rfl
      next hslot =>
        dsimp only at herror ⊢
        generalize b.perform frame c = answer at houtcome herror ⊢
        cases houtcome with
        | unchanged answer => cases answer <;> rfl
        | grown hgrows =>
            obtain ⟨failure, hfailure⟩ := herror
            simp at hfailure
        | abandoned hnative => exact absurd hallocates.2.2 hnative
        | miscounted hoverflows => exact absurd hoverflows (hcareful hslot _ hb)

/-- **The record is a mirror.** On every handle, after every sequence of calls, with whatever
arguments, in which no fast call passes the handle's checks and would bring the native function
beyond 2³² - 1 call arguments, the record equals that of the native function, and a call that fails
without an exception changes nothing. After every sequence of calls with a successful `set_return`,
a `finish` with a place for the function and a free error output succeeds exactly when the sites of
the guards and safepoints are distinct. -/
theorem builder_mirrors_native {frame : CallFrame} {parameterTypes : Option (Nat → BitVec 32)}
    {parameterCount : BitVec 64} {limits : Option AbiCompilationLimits} {b₀ : BuilderHandle}
    (hcreate : builderCreate frame parameterTypes parameterCount limits true = .ok b₀) :
    (∀ (calls : List (CallFrame × BuilderCall)) (b : BuilderHandle),
      Transitions.afterEvents step b₀ calls = some b → Transitions.Along step Careful b₀ calls →
      (∀ f, b.implementation = some ⟨f⟩ → b.Mirrors f) ∧
      ∀ (frame : CallFrame) (c : BuilderCall), frame.Allocates → (∀ output, c ≠ .finish output) →
        b.Careful (frame, c) → (∃ failure, (b.call frame c).1 = .error failure) →
        (b.call frame c).2 = b) ∧
    ∀ (before after : List (CallFrame × BuilderCall)) (b₁ b₂ b : BuilderHandle)
      (frame frame' : CallFrame) (value : Value) (output : Output) (f : Function),
      Transitions.afterEvents step b₀ before = some b₁ →
      b₁.call frame (.setReturn value) = (.ok output, b₂) →
      Transitions.afterEvents step b₂ after = some b → b.implementation = some ⟨f⟩ →
      frame'.nullBuilder = false → frame'.error ≠ .occupied → frame'.Allocates →
      ((∃ output, (b.call frame' (.finish true)).1 = .ok output) ↔ (guardSites f).Nodup) := by
  obtain ⟨htracked, hcounts⟩ := create_spec hcreate
  constructor
  · intro calls b hrun hcareful
    obtain ⟨ht, hc⟩ : b.Tracked ∧ b.CountsArguments := Transitions.invariant_along
      (I := fun b => b.Tracked ∧ b.CountsArguments)
      (fun _ _ _ h hcareful hstep => ⟨h.1.step hstep, h.2.step h.1 hcareful hstep⟩)
      ⟨htracked, hcounts⟩ hcareful hrun
    refine ⟨?_, ?_⟩
    · intro f hf
      have htracks := ht f hf
      exact ⟨htracks.valueTypes, htracks.fastCalls, htracks.patchCells, hc f hf⟩
    · intro frame c hallocates hfinish hcareful herror
      exact ht.unchanged_of_error hallocates hfinish hcareful herror
  · intro before after b₁ b₂ b frame frame' value output f hbefore hreturn hafter hf hnull herror
      hallocates
    have ht₁ : b₁.Tracked :=
      Transitions.invariant (fun _ _ _ h hstep => h.step hstep) htracked hbefore
    have ht₂ : b₂.Tracked := by
      refine ht₁.step (c := (frame, .setReturn value)) ?_
      rw [BuilderHandle.step, hreturn]
    have hr₂ : b₂.HasReturn := hasReturn_of_setReturn hreturn
    obtain ⟨ht, hr⟩ : b.Tracked ∧ b.HasReturn := Transitions.invariant
      (I := fun b => b.Tracked ∧ b.HasReturn)
      (fun _ _ _ h hstep => ⟨h.1.step hstep, h.2.step h.1 hstep⟩) ⟨ht₂, hr₂⟩ hafter
    exact (ht f hf).finish_iff hf (hr f hf) hnull herror hallocates

/-- A handle for a function of one word, with the limits of a client that raises the number of
call arguments. -/
def sampleHandle : BuilderHandle where
  implementation := some (.create [.word])
  valueTypes := [.word]
  maximumNodes := 64 * 1024
  maximumIrArguments := 2 ^ 33
  maximumFastCalls := 64
  maximumPatchCells := 256

/-- Limits that admit more call arguments than the side table can hold. -/
def sampleLimits : AbiCompilationLimits where
  structSize := 176
  limits := { maximumIrArguments := 2 ^ 33 }

lemma create_sample :
    builderCreate {} (some fun _ => 0) 1 (some sampleLimits) true = .ok sampleHandle := by rfl

/-- A fast call of an undeclared function with more arguments than fit the index range, a guard
and a return value. -/
def sampleCalls : List (CallFrame × BuilderCall) :=
  [({}, .fastCall 0 none 0x8000000000000000 true), ({}, .guardNonzero (.ofIndex 0) 7),
    ({}, .setReturn (.ofIndex 0))]

/-- The handle refuses the fast call of the sample and stays a mirror, and the function is
finished. -/
theorem builder_mirrors_native_sample :
    ∃ b, Transitions.afterEvents step sampleHandle sampleCalls = some b ∧
      (∀ f, b.implementation = some ⟨f⟩ → b.Mirrors f) ∧
      ∃ output, (b.call {} (.finish true)).1 = .ok output := by
  obtain ⟨hmirrors, hfinish⟩ := builder_mirrors_native create_sample
  have hcareful : Transitions.Along step Careful sampleHandle sampleCalls := by
    refine ⟨?_, fun b _ => ⟨?_, fun b _ => ⟨?_, fun _ _ => trivial⟩⟩⟩
    · -- no fast call is declared, so the handle refuses this one
      intro _ f _ hoverflows
      obtain ⟨_, _, _, _, _, hc, hpassed, -⟩ := hoverflows
      obtain ⟨rfl, rfl, rfl, rfl⟩ := BuilderCall.fastCall.inj hc
      contradiction
    all_goals
      intro _ f _ hoverflows
      obtain ⟨_, _, _, _, _, hc, -⟩ := hoverflows
      simp at hc
  refine ⟨_, rfl, (hmirrors sampleCalls _ rfl hcareful).1, ?_⟩
  refine (hfinish (sampleCalls.take 2) [] _ _ _ {} {} (.ofIndex 0) .none _ rfl rfl rfl rfl rfl
    (by decide) ⟨rfl, rfl, rfl⟩).mpr ?_
  decide

/-- The handle after the declaration of a fast call with many parameters. -/
def manyDeclared (n : Nat) : BuilderHandle :=
  { sampleHandle with
    implementation := some ⟨{ (FunctionBuilder.create [.word]).function with
      fastCalls := [⟨List.replicate n .word, .word⟩] }⟩
    fastCalls := [⟨List.replicate n .word, .word⟩] }

/-- Declares a fast call with many parameters. -/
def declareMany (count : BitVec 64) : BuilderCall := .declareFastCall (some fun _ => 0) count 0 true

/-- Calls it with as many arguments. -/
def callMany (count : BitVec 64) : BuilderCall := .fastCall 0 (some fun _ => .ofIndex 0) count true

/-- An array of word enumerators is read as word types. -/
lemma valueTypesFromC_words (n : Nat) (message : String) :
    valueTypesFromC (some fun _ => 0) n message = .ok (List.replicate n .word) := by
  show (List.range n).mapM (fun _ => (pure .word : Except Failure ValueType)) = _
  rw [List.mapM_pure, List.map_const', List.length_range]
  rfl

/-- A call whose checks pass acts. -/
lemma checked_of_ok {α : Type} {checks : Except Failure α} {act : α → Answer} {a : α}
    (h : checks = .ok a) : b.checked checks act = act a := by
  rw [h]
  rfl

/-- What the declaration leaves behind. -/
lemma call_declareMany {count : BitVec 64} (hcount : count.toNat ≤ 2 ^ 33) :
    (sampleHandle.call {} (declareMany count)).2 = manyDeclared count.toNat := by
  have hperform : sampleHandle.perform {} (declareMany count) =
      (.ok (.slot 0), manyDeclared count.toNat) := by
    refine (checked_of_ok (a := (FunctionBuilder.create [.word],
      List.replicate count.toNat .word, .word)) ?_).trans rfl
    simp only [bind_eq_ok, requireBuilder_eq_ok, require_eq_ok, not_or, not_lt]
    refine ⟨_, ⟨trivial, rfl, trivial, by decide⟩, (), ⟨hcount, by simp⟩, ?_⟩
    show (valueTypesFromC (some fun _ => 0) count.toNat _ >>= _) = _
    rw [valueTypesFromC_words]
    rfl
  rw [BuilderHandle.call, hperform]

/-- The call's arguments are counted although the builder refused them. -/
lemma call_callMany {count : BitVec 64} (hcount : count.toNat ≤ 2 ^ 33)
    (hmany : kInvalidIndex.toNat < count.toNat) :
    ((manyDeclared count.toNat).call {} (callMany count)).2 =
      { manyDeclared count.toNat with callArguments := count.toNat } := by
  have hperform : (manyDeclared count.toNat).perform {} (callMany count) =
      (.error (.returned ⟨.internal, "builder produced an inconsistent value token", 0⟩),
        { manyDeclared count.toNat with callArguments := count.toNat }) := by
    refine (checked_of_ok (a := (⟨{ (FunctionBuilder.create [.word]).function with
      fastCalls := [⟨List.replicate count.toNat .word, .word⟩] }⟩,
      List.replicate count.toNat (.ofIndex 0))) ?_).trans ?_
    · simp only [fastCallChecks, bind_eq_ok, requireBuilder_eq_ok, require_eq_ok, forM_eq_ok,
        requireValue_eq_ok, prepareValue_eq_ok, pure_eq_ok]
      refine ⟨_, ⟨trivial, rfl, trivial, Nat.zero_lt_one⟩, (), ?_, (), rfl, (), ?_, (),
        ⟨⟨by show 1 < 64 * 1024; decide, by show 1 < _; decide⟩, trivial⟩, ?_⟩
      · simp only [not_or, not_lt]
        refine ⟨?_, hcount, by simp⟩
        simp [manyDeclared]
      · intro p hp
        obtain ⟨hargument, htype⟩ := List.of_mem_zip hp
        obtain ⟨_, -, hargument⟩ := List.mem_map.mp hargument
        rw [List.eq_of_mem_replicate htype, ← hargument]
        rfl
      · simp
    · have hfull : kInvalidIndex.toNat < (List.replicate count.toNat (Value.ofIndex 0)).length := by
        rwa [List.length_replicate]
      dsimp only
      rw [FunctionBuilder.fastCall, if_pos (.inl hfull), finishValue,
        if_pos (.inl not_valid_invalid)]
      simp [manyDeclared, sampleHandle]
  rw [BuilderHandle.call, hperform]

/-- Both parts fail in other runs. A fast call with 2³² arguments is refused by the native builder,
and the handle has counted its arguments. And `finish` refuses an error output that is in use,
whatever the sites. -/
theorem builder_record_diverges :
    (¬ ∀ (frame : CallFrame) (parameterTypes : Option (Nat → BitVec 32))
      (parameterCount : BitVec 64) (limits : Option AbiCompilationLimits) (b₀ b : BuilderHandle)
      (calls : List (CallFrame × BuilderCall)) (f : Function),
      builderCreate frame parameterTypes parameterCount limits true = .ok b₀ →
      Transitions.afterEvents step b₀ calls = some b → b.implementation = some ⟨f⟩ →
      b.Mirrors f) ∧
    (¬ ∀ (frame : CallFrame) (parameterTypes : Option (Nat → BitVec 32))
      (parameterCount : BitVec 64) (limits : Option AbiCompilationLimits) (b₀ b : BuilderHandle)
      (frame₁ frame₂ : CallFrame) (value : Value) (output : Output) (f : Function),
      builderCreate frame parameterTypes parameterCount limits true = .ok b₀ →
      b₀.call frame₁ (.setReturn value) = (.ok output, b) → b.implementation = some ⟨f⟩ →
      frame₂.nullBuilder = false → frame₂.Allocates → (guardSites f).Nodup →
      ∃ output, (b.call frame₂ (.finish true)).1 = .ok output) := by
  constructor
  · intro mirrors
    have hrun : Transitions.afterEvents step sampleHandle
        [({}, declareMany (2 ^ 32)), ({}, callMany (2 ^ 32))] =
        some { manyDeclared (2 ^ 32) with callArguments := 2 ^ 32 } := by
      have hdeclare := @call_declareMany (2 ^ 32) (by decide)
      have hcall := @call_callMany (2 ^ 32) (by decide) (by decide)
      rw [show (2 ^ 32 : BitVec 64).toNat = 2 ^ 32 from by decide] at hdeclare hcall
      exact Transitions.afterEvents_cons.mpr ⟨_, congrArg some hdeclare,
        Transitions.afterEvents_cons.mpr ⟨_, congrArg some hcall, rfl⟩⟩
    have hmirrors := mirrors _ _ _ _ _ _ _ _ create_sample hrun rfl
    exact absurd hmirrors.callArguments (by decide)
  · intro succeeds
    obtain ⟨output, houtput⟩ := succeeds {} (some fun _ => 0) 1 (some sampleLimits) _ _ {}
      { error := .occupied } (.ofIndex 0) .none _ create_sample rfl rfl rfl ⟨rfl, rfl, rfl⟩
      (by decide)
    simp [BuilderHandle.call] at houtput

end BuilderHandle

end UniJit.Embedding
