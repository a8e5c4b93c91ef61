import UniJit.Ir.Operands
import UniJit.Ir.MemoryAccess

/-!
# Executing one instruction

Both interpreters execute a node of a shared operation in the same way, up to the texts of three
statuses. The execution is split in two: `resolve` reads the node's immediate and the side-table
entries it refers to, and gives an `Instruction` that no longer mentions handles or tables;
`Instruction.execute` computes with the values of the operands.

The split makes visible what an execution relies on. The source indexes its arrays without
checks; here every index that does not exist, and every operand that was not assigned or has
another type than the instruction reads, is a `Fault`. Faults are no behaviour of the source: a
run that meets one has left the language, and safety is the statement that no run does.
-/

namespace UniJit.Ir

open UniJit.Lib UniJit.Runtime

variable {Op : Type}

/-- What can be wrong with an access that the source makes without a check. -/
inductive Fault
  /-- An index into the nodes. -/
  | node
  /-- An index into the blocks. -/
  | block
  /-- An index into the arguments of the run or the parameters of a block. -/
  | parameter
  /-- An index into a side table. -/
  | table
  /-- An immediate that is no value of the enumeration it is cast to. -/
  | immediate
  /-- An instruction with more or fewer operands than it reads. -/
  | operandCount
  /-- A value that was not assigned before it was read. -/
  | unassigned
  /-- A value of another type than its reader expects. -/
  | operandType
  /-- A result of another type than its node declares. -/
  | resultType
  deriving DecidableEq, Repr

/-- The contents of a value: an entry of the source's array of words, or of its array of
vectors. -/
inductive Payload
  | scalar (bits : Word)
  | vector (bits : Vector128)
  deriving DecidableEq, Repr

namespace Payload

/-- The entry of the array of words; it is zero for a value that only has a vector. -/
def word : Payload → Word
  | .scalar bits => bits
  | .vector _ => 0

/-- The entry of the array of vectors; it is zero for a value that only has a word. -/
def bits : Payload → Vector128
  | .scalar _ => 0
  | .vector bits => bits

/-- The contents are of the kind that a type denotes. -/
def fits : Payload → ValueType → Bool
  | .scalar _, type => isScalarValueType type
  | .vector _, type => isVectorValueType type

end Payload

/-- The word of an operand; an absent operand reads as zero. -/
def operandWord (operands : List Payload) (index : Nat) : Word :=
  (operands.getD index (.scalar 0)).word

/-- The vector of an operand. -/
def operandVector (operands : List Payload) (index : Nat) : Vector128 :=
  (operands.getD index (.scalar 0)).bits

/-- The extension that a widening immediate denotes in its low byte. -/
def widenExtensionOf (immediate : Word) : Option VectorExtension :=
  enumOfCode [.zero, .sign] (immediate &&& 0xff).toNat

/-- The half that a widening immediate denotes in its second byte. -/
def widenHalfOf (immediate : Word) : Option VectorHalf :=
  enumOfCode [.low, .high] ((immediate.sshiftRight 8) &&& 0xff).toNat

/-! ## Instructions without effects -/

/-- An instruction whose result depends on its operands only. -/
inductive PureInstruction
  | constant (bits : Word)
  | binary (o : BinaryOpcode)
  | unary (o : UnaryOpcode) (width : MemoryWidth)
  | patchCell (initialValue : Word)
  | vectorConstant (bits : Vector128)
  | vectorSplat (type : ValueType)
  | vectorExtractLane (source : ValueType) (lane : Nat) (signExtend : Bool)
  | vectorInsertLane (type : ValueType) (lane : Nat)
  | vectorUnary (o : VectorUnaryOperation) (type : ValueType)
  | vectorBinary (o : VectorBinaryOperation) (type : ValueType)
  | vectorCompare (comparison : VectorComparison) (source : ValueType)
  | vectorSelect (mask type : ValueType)
  | vectorLaneSignMask (source : ValueType)
  | vectorShuffle (type : ValueType) (shuffle : VectorShuffle)
  | vectorWiden (source result : ValueType) (extension : VectorExtension) (half : VectorHalf)
  deriving DecidableEq, Repr

namespace PureInstruction

/-- The types that the operands must have. -/
def expects : PureInstruction → List (ValueType → Bool)
  | .constant _ | .patchCell _ | .vectorConstant _ => []
  | .binary o => [(· == binaryOperandType o), (· == binaryOperandType o)]
  | .unary o _ => [(· == unaryOperandType o)]
  | .vectorSplat _ => [(· == .word)]
  | .vectorExtractLane source lane signExtend =>
      [fun type => type == source && isVectorValueType type &&
        decide (lane < vectorLaneCount type) && (!signExtend || isIntegerVectorType type)]
  | .vectorInsertLane type _ => [(· == type), (· == .word)]
  | .vectorUnary _ type => [(· == type)]
  | .vectorBinary _ type => [(· == type), (· == type)]
  | .vectorCompare _ source => [(· == source), (· == source)]
  | .vectorSelect mask type => [(· == mask), (· == type), (· == type)]
  | .vectorLaneSignMask source => [fun type => type == source && isVectorValueType type]
  | .vectorShuffle type _ => [(· == type)]
  | .vectorWiden source _ _ _ => [(· == source)]

/-- The types that the result can be declared with. -/
def yields : PureInstruction → ValueType → Bool
  | .constant _, type => isScalarValueType type
  | .binary o, type => type == binaryResultType o
  | .unary o _, type => type == unaryOperandType o
  | .patchCell _, type => type == .word
  | .vectorConstant _, type => isVectorValueType type
  | .vectorSplat type, result => result == type && isLaneVectorType type
  | .vectorExtractLane .., type => type == .word
  | .vectorInsertLane type lane, result =>
      result == type && isLaneVectorType type && decide (lane < vectorLaneCount type)
  | .vectorUnary _ type, result => result == type && isVectorValueType type
  | .vectorBinary o type, result => result == type && vectorBinaryDefined o type
  | .vectorCompare c source, result =>
      result == vectorMaskType source && vectorComparisonDefined c source
  | .vectorSelect mask type, result =>
      result == type && isVectorValueType type && isMaskVectorType mask &&
        vectorShapesMatch mask type
  | .vectorLaneSignMask _, type => type == .word
  | .vectorShuffle type _, result => result == type && isVectorValueType type
  | .vectorWiden source type _ _, result => result == type && validVectorWiden source type

/-- The result of an instruction, from the contents of its operands. -/
def evaluate (float : FloatUnit) (i : PureInstruction) (operands : List Payload) : Payload :=
  let word := operandWord operands
  let vector := operandVector operands
  match i with
  | .constant bits => .scalar bits
  | .binary o => .scalar (evaluateBinary float o (word 0) (word 1))
  | .unary o width => .scalar (evaluateUnary o width (word 0))
  | .patchCell initialValue => .scalar initialValue
  | .vectorConstant bits => .vector bits
  | .vectorSplat type => .vector (vectorSplatBits type (word 0))
  | .vectorExtractLane source lane signExtend =>
      .scalar (vectorExtractLaneBits (vector 0) source lane signExtend)
  | .vectorInsertLane type lane => .vector (vectorInsertLaneBits (vector 0) type lane (word 1))
  | .vectorUnary o type => .vector (Ir.vectorUnary o (vector 0) type)
  | .vectorBinary o type => .vector (Ir.vectorBinary float o (vector 0) (vector 1) type)
  | .vectorCompare comparison source =>
      .vector (Ir.vectorCompare float comparison (vector 0) (vector 1) source)
  | .vectorSelect mask _ => .vector (Ir.vectorSelect (vector 0) (vector 1) (vector 2) mask)
  | .vectorLaneSignMask source => .scalar (Ir.vectorLaneSignMask (vector 0) source)
  | .vectorShuffle type shuffle => .vector (Ir.vectorShuffle (vector 0) type shuffle)
  | .vectorWiden source type extension half =>
      .vector (Ir.vectorWiden (vector 0) source type extension half)

/-- A lane type is a vector type. -/
lemma isVector_of_lanes {type : ValueType} (h : isLaneVectorType type) :
    isVectorValueType type := by
  revert h
  cases type <;> decide

/-- Lane-wise operations are defined on vector types only. -/
lemma isVector_of_binary {o : VectorBinaryOperation} {type : ValueType}
    (h : vectorBinaryDefined o type) : isVectorValueType type := by
  revert h
  cases o <;> cases type <;> decide

/-- A comparison's mask is of a vector type. -/
lemma isVector_of_comparison {c : VectorComparison} {type : ValueType}
    (h : vectorComparisonDefined c type) : isVectorValueType (vectorMaskType type) := by
  revert h
  cases c <;> cases type <;> decide

/-- A widening gives a vector type. -/
lemma isVector_of_widen {source type : ValueType} (h : validVectorWiden source type) :
    isVectorValueType type := by
  simp only [validVectorWiden, Bool.and_eq_true] at h
  unfold isVectorValueType
  simp [h.1.1.2]

/-- The result is of the kind that its declared type denotes. -/
lemma evaluate_fits {float : FloatUnit} {i : PureInstruction} {operands : List Payload}
    {type : ValueType} (h : i.yields type) : (i.evaluate float operands).fits type := by
  cases i with
  | constant | vectorConstant => exact h
  | binary o =>
      obtain rfl : type = binaryResultType o := by simpa [yields] using h
      cases o <;> rfl
  | unary o =>
      obtain rfl : type = unaryOperandType o := by simpa [yields] using h
      cases o <;> rfl
  | patchCell | vectorExtractLane | vectorLaneSignMask =>
      obtain rfl : type = .word := by simpa [yields] using h
      rfl
  | vectorSplat | vectorInsertLane =>
      simp only [yields, Bool.and_eq_true, beq_iff_eq] at h
      obtain rfl : type = _ := by tauto
      exact isVector_of_lanes (by tauto)
  | vectorUnary | vectorSelect | vectorShuffle =>
      simp only [yields, Bool.and_eq_true, beq_iff_eq] at h
      obtain rfl : type = _ := by tauto
      show isVectorValueType type = true
      tauto
  | vectorBinary =>
      simp only [yields, Bool.and_eq_true, beq_iff_eq] at h
      rw [h.1]
      exact isVector_of_binary h.2
  | vectorCompare =>
      simp only [yields, Bool.and_eq_true, beq_iff_eq] at h
      rw [h.1]
      exact isVector_of_comparison h.2
  | vectorWiden =>
      simp only [yields, Bool.and_eq_true, beq_iff_eq] at h
      rw [h.1]
      exact isVector_of_widen h.2

end PureInstruction

/-! ## Instructions with effects -/

/-- The texts in which the two interpreters differ. -/
structure Texts where
  fastCall : String
  guard : String
  safepoint : String

/-- An instruction that reads or changes the machine, or that may stop the run. -/
inductive EffectInstruction
  | guardNonzero (float : Bool) (site : Nat)
  | call (helper : RuntimeHelper) (argumentCount : Nat)
  | fastCall (target : Nat) (descriptor : FastCallDescriptor)
  | safepoint (site : Nat)
  | memory (o : MemoryOpcode) (access : MemoryAccessDescriptor) (type : ValueType) (site : Nat)
  | atomic (o : AtomicOpcode) (access : AtomicAccessDescriptor) (site : Nat)
  | atomicFence (order : AtomicMemoryOrder)
  | loadFrame (slot : Nat) (type : ValueType)
  | storeFrame (slot : Nat) (type : ValueType)
  | loadObject (slot : BitVec 32) (byteOffset : Nat)
  | storeObject (slot : BitVec 32) (byteOffset : Nat) (type : ValueType)
  deriving DecidableEq, Repr

/-- The type of the value that a memory operation moves; vectors are of the node's type. -/
def movedType (o : MemoryOpcode) (type : ValueType) : ValueType :=
  if isVectorMemory o then type else if isFloatMemory o then .float64 else .word

/-- Call a helper and note the call. -/
def callHelper (host : Host) (helper : RuntimeHelper) (arguments : List Word) : Exec Word := do
  modify fun m => { m with helperCalls := m.helperCalls ++ [(helper, arguments)] }
  pure (host.helper helper arguments)

/-- Poll for an interrupt; without a context there is nothing to poll. -/
def pollSafepoint (host : Host) (texts : Texts) (site : Nat) : Exec Word := do
  if (← get).context.isNone then pure 0
  else
    modify fun m =>
      { m.updateContext ExecutionContext.recordSafepointPoll with polls := m.polls + 1 }
    if host.exitPollRequested (← get).polls then
      stopAt .safepoint .executionInterrupted texts.safepoint site 0
    else pure 0

namespace EffectInstruction

/-- The types that the operands must have. -/
def expects : EffectInstruction → List (ValueType → Bool)
  | .guardNonzero float _ => [(· == if float then .float64 else .word)]
  | .call _ argumentCount => List.replicate argumentCount isScalarValueType
  | .fastCall _ descriptor => descriptor.parameterTypes.map fun type => (· == type)
  | .safepoint _ | .atomicFence _ | .loadFrame .. | .loadObject .. => []
  | .memory o _ type _ =>
      if isMemoryStore o then [(· == .word), (· == movedType o type)] else [(· == .word)]
  | .atomic .load _ _ => [(· == .word)]
  | .atomic .compareExchange _ _ => [(· == .word), (· == .word), (· == .word)]
  | .atomic _ _ _ => [(· == .word), (· == .word)]
  | .storeFrame _ type => [(· == type)]
  | .storeObject _ _ type => [(· == type)]

/-- The types that the result can be declared with. -/
def yields : EffectInstruction → ValueType → Bool
  | .guardNonzero .., type | .safepoint _, type | .atomic .., type | .atomicFence _, type =>
      type == .word
  | .call .., type | .loadObject .., type => isScalarValueType type
  | .fastCall _ descriptor, type => type == descriptor.returnType && isScalarValueType type
  | .memory o _ moved _, type =>
      type == movedType o moved && (!isVectorMemory o || isLaneVectorType moved)
  | .loadFrame _ slot, type | .storeFrame _ slot, type => type == slot && isScalarValueType slot
  | .storeObject _ _ stored, type => type == stored && isScalarValueType stored

/-- Runs an effect on its operands. -/
def execute (host : Host) (texts : Texts) (i : EffectInstruction) (operands : List Payload) :
    Exec Payload :=
  let word := operandWord operands
  let vector := operandVector operands
  match i with
  | .guardNonzero float site =>
      if (if float then host.float.equal (word 0) 0 else word 0 == 0) then
        stopAt .runtime .runtimeExit texts.guard site (word 0)
      else pure (.scalar 0)
  | .call helper _ => .scalar <$> callHelper host helper (operands.map Payload.word)
  | .fastCall target _ => do
      match (← get).context.bind fun context => (context.fastCallOracles.getD target none) with
      | none => throw { code := .invalidArgument, message := texts.fastCall, location := target }
      | some oracle => .scalar <$> callHelper host oracle (operands.map Payload.word)
  | .safepoint site => .scalar <$> pollSafepoint host texts site
  | .memory o access type site =>
      match o with
      | .loadWord => .scalar <$> loadBoundedWord host access (word 0) site
      | .storeWord => .scalar <$> storeBoundedWord host access (word 0) (word 1) site
      | .loadFloat => .scalar <$> loadBoundedFloat host access (word 0) site
      | .storeFloat => .scalar <$> storeBoundedFloat host access (word 0) (word 1) site
      | .loadVector => .vector <$> loadBoundedVector host access type (word 0) site
      | .storeVector => .vector <$> storeBoundedVector host access type (word 0) (vector 1) site
  | .atomic o access site =>
      .scalar <$> accessBoundedAtomic host access o (word 0) (word 1) (word 2) site
  | .atomicFence _ => pure (.scalar 0)
  | .loadFrame slot _ => do pure (.scalar ((← get).frame.getD slot 0))
  | .storeFrame slot _ => do
      modify fun m => { m with frame := m.frame.set slot (word 0) }
      pure (.scalar (word 0))
  | .loadObject slot byteOffset => .scalar <$> loadTrustedObject host slot byteOffset
  | .storeObject slot byteOffset _ =>
      .scalar <$> storeTrustedObject host slot byteOffset (word 0)

end EffectInstruction

/-! ## Resolution -/

/-- An instruction either computes or has an effect. -/
inductive Instruction
  | pure (i : PureInstruction)
  | effect (i : EffectInstruction)
  deriving DecidableEq, Repr

namespace Instruction

/-- What an instruction demands of the types of its operands. -/
def expects : Instruction → List (ValueType → Bool)
  | .pure i => i.expects
  | .effect i => i.expects

/-- The types an instruction may give. -/
def yields : Instruction → ValueType → Bool
  | .pure i => i.yields
  | .effect i => i.yields

/-- Runs an instruction on its operands. -/
def execute (host : Host) (texts : Texts) (i : Instruction) (operands : List Payload) :
    Exec Payload :=
  match i with
  | .pure i => Pure.pure (i.evaluate host.float operands)
  | .effect i => i.execute host texts operands

end Instruction

/-- An entry that must exist. -/
def orFault {α : Type} (entry : Option α) (fault : Fault) : Except Fault α :=
  match entry with
  | none => .error fault
  | some a => .ok a

/-- The instruction that a node denotes: its immediate and its side-table entries are read, and
the types of its operands where the execution depends on them. -/
def resolve (valueType : Value → ValueType) (t : SideTables) (n : NodeOf Op) :
    Operation → Except Fault Instruction
  | .constant => .ok (.pure (.constant n.immediate))
  | .binary o => .ok (.pure (.binary o))
  | .unary .byteSwap => do
      let width ← orFault (byteSwapWidthOf n.immediate) .immediate
      pure (.pure (.unary .byteSwap width))
  | .unary o => .ok (.pure (.unary o .k64))
  | .guardWordNonzero => .ok (.effect (.guardNonzero false n.immediate.toNat))
  | .guardFloatNonzero => .ok (.effect (.guardNonzero true n.immediate.toNat))
  | .call => do
      let arguments ← orFault (t.callArgumentsOf n) .table
      pure (.effect (.call n.immediate arguments.length))
  | .fastCall => do
      let descriptor ← orFault t.fastCalls[n.immediate.toNat]? .table
      let _ ← orFault (t.callArgumentsOf n) .table
      pure (.effect (.fastCall n.immediate.toNat descriptor))
  | .safepoint => .ok (.effect (.safepoint n.immediate.toNat))
  | .memory o => do
      let access ← orFault t.memoryAccesses[n.memoryAccess.toNat]? .table
      pure (.effect (.memory o access n.type n.immediate.toNat))
  | .atomic o => do
      let access ← orFault t.atomicAccesses[n.atomicAccess.toNat]? .table
      pure (.effect (.atomic o access n.immediate.toNat))
  | .atomicFence => do
      let order ← orFault (fenceOrderOf n.immediate) .immediate
      pure (.effect (.atomicFence order))
  | .loadFrame => do
      let slot ← orFault t.frameSlots[n.frameSlot.toNat]? .table
      pure (.effect (.loadFrame n.frameSlot.toNat slot.type))
  | .storeFrame => do
      let slot ← orFault t.frameSlots[n.frameSlot.toNat]? .table
      pure (.effect (.storeFrame n.frameSlot.toNat slot.type))
  | .loadObject => .ok (.effect (.loadObject n.trustedObject n.immediate.toNat))
  | .storeObject => .ok (.effect (.storeObject n.trustedObject n.immediate.toNat n.type))
  | .loadPatchCell => do
      let cell ← orFault t.patchCells[n.immediate.toNat]? .table
      pure (.pure (.patchCell cell.initialValue))
  | .vectorConstant => do
      let bits ← orFault t.vectorConstants[n.immediate.toNat]? .table
      pure (.pure (.vectorConstant bits))
  | .vectorSplat => .ok (.pure (.vectorSplat n.type))
  | .vectorExtractLane =>
      .ok (.pure (.vectorExtractLane (valueType n.lhs) (extractLane n.immediate)
        (extractSignExtend n.immediate)))
  | .vectorInsertLane => .ok (.pure (.vectorInsertLane n.type n.immediate.toNat))
  | .vectorUnary => do
      require (validVectorUnary n.immediate) Fault.immediate
      pure (.pure (.vectorUnary .bitwiseNot n.type))
  | .vectorBinary => do
      let o ← orFault (vectorBinaryOf n.immediate) .immediate
      pure (.pure (.vectorBinary o n.type))
  | .vectorCompare => do
      let comparison ← orFault (vectorComparisonOf n.immediate) .immediate
      pure (.pure (.vectorCompare comparison (valueType n.lhs)))
  | .vectorSelect => do
      let _ ← orFault t.vectorSelectArguments[n.immediate.toNat]? .table
      pure (.pure (.vectorSelect (valueType n.lhs) n.type))
  | .vectorLaneSignMask => .ok (.pure (.vectorLaneSignMask (valueType n.lhs)))
  | .vectorShuffle => do
      let shuffle ← orFault t.vectorShuffles[n.immediate.toNat]? .table
      pure (.pure (.vectorShuffle n.type shuffle))
  | .vectorWiden => do
      let extension ← orFault (widenExtensionOf n.immediate) .immediate
      let half ← orFault (widenHalfOf n.immediate) .immediate
      pure (.pure (.vectorWiden (valueType n.lhs) n.type extension half))

/-! ## Well-typed nodes -/

@[simp] lemma orFault_some {α : Type} (a : α) (fault : Fault) : orFault (some a) fault = .ok a :=
  rfl

/-- An operand is usable and has a type that its reader expects. -/
def Usable (Γ : Value → Option ValueType) (v : Value) (expects : ValueType → Bool) : Prop :=
  ∃ type, Γ v = some type ∧ expects type

/-- A value of a known type is usable as that type. -/
lemma usable_eq {Γ : Value → Option ValueType} {v : Value} {type : ValueType}
    (h : Γ v = some type) : Usable Γ v (· == type) :=
  ⟨type, h, beq_self_eq_true type⟩

lemma usable_of_any {Γ : Value → Option ValueType} {v : Value} {p : ValueType → Bool}
    (h : (Γ v).any p) : Usable Γ v p :=
  (Option.any_eq_true ..).mp h

/-- Values that all pass one test are usable under its copies. -/
lemma usable_replicate {Γ : Value → Option ValueType} {p : ValueType → Bool} {vs : List Value}
    (h : ∀ v ∈ vs, (Γ v).any p) :
    List.Forall₂ (Usable Γ) vs (List.replicate vs.length p) := by
  induction vs with
  | nil => exact .nil
  | cons v vs ih =>
      exact .cons (usable_of_any (h v (by simp))) (ih fun w hw => h w (by simp [hw]))

/-- Values of the listed types are usable as these types. -/
lemma usable_map {Γ : Value → Option ValueType} {vs : List Value} {types : List ValueType}
    (h : vs.map Γ = types.map some) :
    List.Forall₂ (Usable Γ) vs (types.map fun type => (· == type)) := by
  induction vs generalizing types with
  | nil =>
      obtain rfl : types = [] := by simpa using h.symm
      exact .nil
  | cons v vs ih =>
      cases types with
      | nil => simp at h
      | cons type types =>
          simp only [List.map_cons, List.cons.injEq] at h
          exact .cons (usable_eq h.1) (ih h.2)

/-- A valid immediate names a lane-wise operation defined on the type. -/
lemma vectorBinaryDefined_of_valid {immediate : Word} {type : ValueType}
    (h : validVectorBinary immediate type) :
    ∃ o, vectorBinaryOf immediate = some o ∧ vectorBinaryDefined o type := by
  unfold validVectorBinary at h
  cases ho : vectorBinaryOf immediate with
  | none => simp [ho] at h
  | some o =>
      rw [ho] at h
      refine ⟨o, rfl, ?_⟩
      cases o <;> exact h

/-- A valid immediate names a comparison defined on the type. -/
lemma vectorComparisonDefined_of_valid {immediate : Word} {type : ValueType}
    (h : validVectorComparison immediate type) :
    ∃ c, vectorComparisonOf immediate = some c ∧ vectorComparisonDefined c type := by
  unfold validVectorComparison at h
  cases hc : vectorComparisonOf immediate with
  | none => simp [hc] at h
  | some c =>
      rw [hc] at h
      refine ⟨c, rfl, ?_⟩
      revert h
      cases c <;> cases type <;> decide

/-- A widening immediate has no bits but the lowest of each of its two bytes. -/
lemma widen_immediate_cases {immediate : Word} (h : immediate &&& ~~~0x101 = 0) :
    immediate = 0 ∨ immediate = 1 ∨ immediate = 0x100 ∨ immediate = 0x101 := by
  have hmask : (0x101 : Word) = BitVec.twoPow 64 0 ||| BitVec.twoPow 64 8 := by decide
  have hbits : ∀ i, i < 64 → i ≠ 0 → i ≠ 8 → immediate.getLsbD i = false := by
    intro i hi h0 h8
    have hbit : (immediate &&& ~~~0x101).getLsbD i = false := by rw [h]; simp
    rw [hmask] at hbit
    have hset : immediate.getLsbD i = true → ¬i = 0 → i = 8 := by simpa [hi] using hbit
    exact Bool.eq_false_iff.mpr fun hcon => h8 (hset hcon h0)
  have hform : immediate = (bif immediate.getLsbD 0 then BitVec.twoPow 64 0 else 0) |||
      (bif immediate.getLsbD 8 then BitVec.twoPow 64 8 else 0) := by
    apply BitVec.eq_of_getLsbD_eq
    intro i hi
    by_cases h0 : i = 0
    · subst h0
      cases immediate.getLsbD 0 <;> cases immediate.getLsbD 8 <;> simp
    · by_cases h8 : i = 8
      · subst h8
        cases immediate.getLsbD 0 <;> cases immediate.getLsbD 8 <;> simp
      · rw [hbits i hi h0 h8]
        cases immediate.getLsbD 0 <;> cases immediate.getLsbD 8 <;>
          simp [BitVec.getLsbD_twoPow, Ne.symm h0, Ne.symm h8]
  rw [hform]
  cases immediate.getLsbD 0 <;> cases immediate.getLsbD 8 <;> decide

/-- **Well-typed nodes resolve**: the entries and immediates that a well-typed node refers to
exist, its operands are usable at the types the instruction expects, and its result has the
declared type. -/
theorem Typed.resolve {t : SideTables} {Γ : Value → Option ValueType} {o : Operation}
    {n : NodeOf Op} {valueType : Value → ValueType} (sound : t.Sound)
    (agrees : ∀ v type, Γ v = some type → valueType v = type) (h : Typed t Γ o n) :
    ∃ i, Ir.resolve valueType t n o = .ok i ∧ i.yields n.type ∧
      List.Forall₂ (Usable Γ) (Ir.operands t n o) i.expects := by
  cases o with
  | constant => exact ⟨_, rfl, h.1, .nil⟩
  | binary o =>
      obtain ⟨⟨htype, hl, hr⟩, -⟩ := h
      refine ⟨_, rfl, ?_, .cons (usable_eq hl) (.cons (usable_eq hr) .nil)⟩
      simp [Instruction.yields, PureInstruction.yields, htype]
  | unary o =>
      obtain ⟨hl, -, htype, himm, -⟩ := h
      have hresolve : ∃ width, Ir.resolve valueType t n (.unary o) = .ok (.pure (.unary o width)) := by
        cases o with
        | byteSwap =>
            obtain ⟨width, hwidth⟩ := Option.isSome_iff_exists.mp himm
            exact ⟨width, by simp only [Ir.resolve, hwidth, orFault_some]; rfl⟩
        | _ => exact ⟨_, rfl⟩
      obtain ⟨width, hresolve⟩ := hresolve
      refine ⟨_, hresolve, ?_, .cons (usable_eq hl) .nil⟩
      simp [Instruction.yields, PureInstruction.yields, htype]
  | guardWordNonzero =>
      obtain ⟨-, htype, hl, -⟩ := h
      exact ⟨_, rfl, by simp [Instruction.yields, EffectInstruction.yields, htype],
        .cons (usable_eq hl) .nil⟩
  | guardFloatNonzero =>
      obtain ⟨-, htype, hl, -⟩ := h
      exact ⟨_, rfl, by simp [Instruction.yields, EffectInstruction.yields, htype],
        .cons (usable_eq hl) .nil⟩
  | call =>
      obtain ⟨⟨-, hscalar, -⟩, arguments, hargs, hall⟩ := h
      have hoperands : Ir.operands t n .call = arguments := by
        unfold SideTables.callArgumentsOf at hargs
        split_ifs at hargs
        exact Option.some.inj hargs
      refine ⟨.effect (.call n.immediate arguments.length), ?_, hscalar, ?_⟩
      · simp only [Ir.resolve, hargs, orFault_some]
        rfl
      · rw [hoperands]
        exact usable_replicate hall
  | fastCall =>
      obtain ⟨-, descriptor, arguments, hdescriptor, hargs, htype, htypes⟩ := h
      have hoperands : Ir.operands t n .fastCall = arguments := by
        unfold SideTables.callArgumentsOf at hargs
        split_ifs at hargs
        exact Option.some.inj hargs
      refine ⟨.effect (.fastCall n.immediate.toNat descriptor), ?_, ?_, ?_⟩
      · simp only [Ir.resolve, hargs, hdescriptor, orFault_some]
        rfl
      · have := (sound.fastCalls _ (List.mem_of_getElem? hdescriptor)).1
        simp [Instruction.yields, EffectInstruction.yields, htype, this]
      · rw [hoperands]
        exact usable_map htypes
  | safepoint =>
      exact ⟨_, rfl, by simp [Instruction.yields, EffectInstruction.yields, h.2.1], .nil⟩
  | memory o =>
      obtain ⟨access, haccess, hok, -, hstored⟩ := h
      obtain ⟨-, -, -, -, -, -, hvector, -, -, htype, hl, -⟩ := hok
      refine ⟨.effect (.memory o access n.type n.immediate.toNat), ?_, ?_, ?_⟩
      · simp only [Ir.resolve, haccess, orFault_some]
        rfl
      · have hmoved : n.type = movedType o n.type := htype
        simp only [Instruction.yields, EffectInstruction.yields, ← hmoved, beq_self_eq_true,
          Bool.true_and]
        cases hv : isVectorMemory o with
        | false => rfl
        | true =>
            by_contra hcon
            exact hvector ⟨hv, .inr hcon⟩
      · have hl := usable_eq hl
        cases o with
        | loadWord | loadFloat | loadVector => exact .cons hl .nil
        | storeWord | storeFloat | storeVector =>
            exact .cons hl (.cons (usable_eq (hstored rfl)) .nil)
  | atomic o =>
      obtain ⟨access, haccess, hok, hinput, hdesired⟩ := h
      obtain ⟨-, -, -, -, -, -, -, -, -, -, htype, hl, -⟩ := hok
      refine ⟨.effect (.atomic o access n.immediate.toNat), ?_, ?_, ?_⟩
      · simp only [Ir.resolve, haccess, orFault_some]
        rfl
      · simp [Instruction.yields, EffectInstruction.yields, htype]
      · have hl := usable_eq hl
        cases o with
        | load => exact .cons hl .nil
        | compareExchange =>
            exact .cons hl (.cons (usable_eq hinput) (.cons (usable_eq (hdesired rfl)) .nil))
        | _ => exact .cons hl (.cons (usable_eq hinput) .nil)
  | atomicFence =>
      obtain ⟨horder, htype, -⟩ := h
      obtain ⟨order, hfence, -⟩ := (Option.any_eq_true ..).mp horder
      refine ⟨.effect (.atomicFence order), ?_, ?_, .nil⟩
      · simp only [Ir.resolve, hfence, orFault_some]
        rfl
      · simp [Instruction.yields, EffectInstruction.yields, htype]
  | loadFrame =>
      obtain ⟨-, htype, -⟩ := h
      obtain ⟨slot, hslot, htype⟩ := Option.map_eq_some_iff.mp htype
      have hscalar := sound.frameSlots _ (List.mem_of_getElem? hslot)
      refine ⟨.effect (.loadFrame n.frameSlot.toNat slot.type), ?_, ?_, .nil⟩
      · simp only [Ir.resolve, hslot, orFault_some]
        rfl
      · simp [Instruction.yields, EffectInstruction.yields, ← htype, hscalar]
  | storeFrame =>
      obtain ⟨-, htype, hl⟩ := h
      obtain ⟨slot, hslot, htype⟩ := Option.map_eq_some_iff.mp htype
      have hscalar := sound.frameSlots _ (List.mem_of_getElem? hslot)
      refine ⟨.effect (.storeFrame n.frameSlot.toNat slot.type), ?_, ?_, ?_⟩
      · simp only [Ir.resolve, hslot, orFault_some]
        rfl
      · simp [Instruction.yields, EffectInstruction.yields, ← htype, hscalar]
      · rw [← htype] at hl
        exact .cons (usable_eq hl) .nil
  | loadObject => exact ⟨_, rfl, h.1.2.2.2.2.2, .nil⟩
  | storeObject =>
      refine ⟨_, rfl, ?_, .cons (usable_eq h.2.2) .nil⟩
      simp [Instruction.yields, EffectInstruction.yields, h.1.2.2.2.2.2]
  | loadPatchCell =>
      obtain ⟨-, hlt, htype, -⟩ := h
      refine ⟨.pure (.patchCell (t.patchCells[n.immediate.toNat]).initialValue), ?_, ?_, .nil⟩
      · simp only [Ir.resolve, List.getElem?_eq_getElem hlt, orFault_some]
        rfl
      · simp [Instruction.yields, PureInstruction.yields, htype]
  | vectorConstant =>
      obtain ⟨hvector, -, -, -, bits, hbits, -⟩ := h
      refine ⟨.pure (.vectorConstant bits), ?_, hvector, .nil⟩
      simp only [Ir.resolve, hbits, orFault_some]
      rfl
  | vectorSplat =>
      obtain ⟨hlanes, -, hl, -⟩ := h
      exact ⟨_, rfl, by simp [Instruction.yields, PureInstruction.yields, hlanes],
        .cons (usable_eq hl) .nil⟩
  | vectorExtractLane =>
      obtain ⟨-, -, hl, htype, -⟩ := h
      refine ⟨_, rfl, by simp [Instruction.yields, PureInstruction.yields, htype], ?_⟩
      obtain ⟨source, hsource, hrest⟩ := (Option.any_eq_true ..).mp hl
      refine .cons ⟨source, hsource, ?_⟩ .nil
      simp only [Bool.and_eq_true] at hrest ⊢
      exact ⟨⟨⟨by simp [agrees _ _ hsource], hrest.1.1⟩, hrest.1.2⟩, hrest.2⟩
  | vectorInsertLane =>
      obtain ⟨-, hlanes, hl, hr, hlane, -⟩ := h
      exact ⟨_, rfl, by simp [Instruction.yields, PureInstruction.yields, hlanes, hlane],
        .cons (usable_eq hl) (.cons (usable_eq hr) .nil)⟩
  | vectorUnary =>
      obtain ⟨himm, hvector, hl, -⟩ := h
      refine ⟨.pure (.vectorUnary .bitwiseNot n.type), ?_, ?_, .cons (usable_eq hl) .nil⟩
      · simp only [Ir.resolve, himm, require, if_true]
        rfl
      · simpa [Instruction.yields, PureInstruction.yields] using hvector
  | vectorBinary =>
      obtain ⟨himm, hl, hr, -⟩ := h
      obtain ⟨o, ho, hdefined⟩ := vectorBinaryDefined_of_valid himm
      refine ⟨.pure (.vectorBinary o n.type), ?_, ?_,
        .cons (usable_eq hl) (.cons (usable_eq hr) .nil)⟩
      · simp only [Ir.resolve, ho, orFault_some]
        rfl
      · simp [Instruction.yields, PureInstruction.yields, hdefined]
  | vectorCompare =>
      obtain ⟨source, hsource, hrest⟩ := (Option.any_eq_true ..).mp h.1
      simp only [Bool.and_eq_true, decide_eq_true_eq] at hrest
      obtain ⟨⟨hr, himm⟩, htype⟩ := hrest
      obtain ⟨c, hc, hdefined⟩ := vectorComparisonDefined_of_valid himm
      refine ⟨.pure (.vectorCompare c source), ?_, ?_,
        .cons (usable_eq hsource) (.cons (usable_eq hr) .nil)⟩
      · simp only [Ir.resolve, hc, orFault_some, agrees _ _ hsource]
        rfl
      · simp [Instruction.yields, PureInstruction.yields, hdefined, htype]
  | vectorSelect =>
      obtain ⟨-, third, hthird, hmask, hvector, hr, hthirdType, -⟩ := h
      obtain ⟨mask, hl, hshape⟩ := (Option.any_eq_true ..).mp hmask
      simp only [Bool.and_eq_true] at hshape
      refine ⟨.pure (.vectorSelect mask n.type), ?_, ?_, ?_⟩
      · simp only [Ir.resolve, hthird, orFault_some, agrees _ _ hl]
        rfl
      · simp only [Instruction.yields, PureInstruction.yields, Bool.and_eq_true]
        exact ⟨⟨⟨by simp, hvector⟩, hshape.1⟩, hshape.2⟩
      · have hget : t.vectorSelectArguments.getD n.immediate.toNat .invalid = third := by
          simp [List.getD, hthird]
        simp only [Ir.operands, hget]
        exact .cons (usable_eq hl) (.cons (usable_eq hr) (.cons (usable_eq hthirdType) .nil))
  | vectorLaneSignMask =>
      obtain ⟨-, hl, htype, -⟩ := h
      refine ⟨_, rfl, by simp [Instruction.yields, PureInstruction.yields, htype], ?_⟩
      obtain ⟨source, hsource, hvector⟩ := (Option.any_eq_true ..).mp hl
      refine .cons ⟨source, hsource, ?_⟩ .nil
      simp only [Bool.and_eq_true]
      exact ⟨by simp [agrees _ _ hsource], hvector⟩
  | vectorShuffle =>
      obtain ⟨-, ⟨hvector, hl, -⟩, shuffle, hshuffle, -⟩ := h
      refine ⟨.pure (.vectorShuffle n.type shuffle), ?_, ?_, .cons (usable_eq hl) .nil⟩
      · simp only [Ir.resolve, hshuffle, orFault_some]
        rfl
      · simpa [Instruction.yields, PureInstruction.yields] using hvector
  | vectorWiden =>
      obtain ⟨-, himm, hl, -⟩ := h
      obtain ⟨source, hsource, hvalid⟩ := (Option.any_eq_true ..).mp hl
      have hextension : ∃ extension half, widenExtensionOf n.immediate = some extension ∧
          widenHalfOf n.immediate = some half := by
        rcases widen_immediate_cases himm with h | h | h | h <;> rw [h] <;> exact ⟨_, _, rfl, rfl⟩
      obtain ⟨extension, half, he, hh⟩ := hextension
      refine ⟨.pure (.vectorWiden source n.type extension half), ?_, ?_,
        .cons (usable_eq hsource) .nil⟩
      · simp only [Ir.resolve, he, hh, orFault_some, agrees _ _ hsource]
        rfl
      · simp [Instruction.yields, PureInstruction.yields, hvalid]

end UniJit.Ir
