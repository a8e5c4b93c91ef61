import UniJit.Lib.Checked
import UniJit.Ir.NodeRules

/-!
# The straight-line verifier

`verify` walks the nodes once. Side-table entries must be referred to in order and completely, so
the walk carries one counter per table (`Expected`). The check of one node is `verifyNode`; its
message and location are the source's.

`verifyNode_eq_ok` says what a successful check means, in terms of the judgement `Typed` and the
counters, and `verify_eq_ok` collects this over the whole function as `Function.Verified`.
-/

namespace UniJit.Ir

open UniJit.Lib

/-- A verifier's refusal of a node. -/
def invalidNode (index : Nat) (message : String) : Status :=
  { code := .invalidIr, message := message, location := index }

/-- The next entry of each side table that a node has to refer to. -/
structure Expected where
  callArgument : Nat := 0
  memoryAccess : Nat := 0
  atomicAccess : Nat := 0
  vectorConstant : Nat := 0
  vectorShuffle : Nat := 0
  vectorSelect : Nat := 0
  deriving DecidableEq, Repr

namespace Opcode

/-- The operation of an opcode that is not a parameter. -/
def operation? : Opcode → Option Operation
  | .parameter => none
  | .op o => some o

/-- A bounded memory access. -/
def isMemory (o : Opcode) : Bool := o.operation?.any (·.isMemory)
/-- An atomic access. -/
def isAtomicAccess (o : Opcode) : Bool := o.operation?.any (·.isAtomicAccess)
/-- An access to a frame slot. -/
def isFrame (o : Opcode) : Bool := o.operation?.any (·.isFrame)
/-- An access to a trusted object. -/
def isObject (o : Opcode) : Bool := o.operation?.any (·.isObject)
/-- An opcode that may leave the function at a site. -/
def isRuntimeExit (o : Opcode) : Bool := o.operation?.any (·.isRuntimeExit)

end Opcode

namespace Function

variable (f : Function)

/-- The operand context of position `index`: the earlier nodes. -/
def earlier (index : Nat) (v : Value) : Option ValueType :=
  if v.valid ∧ v.index < index then f.nodes[v.index]?.map (·.type) else none

/-- No earlier runtime exit uses the site. -/
abbrev siteUnused (index : Nat) (site : Word) : Prop :=
  ∀ previous ∈ f.nodes.take index,
    ¬ (previous.opcode.isRuntimeExit ∧ previous.immediate = site)

/-- Refuses a site that an earlier exit uses. -/
def requireSiteUnused (index : Nat) (n : Node) : Except Status Unit :=
  require (f.siteUnused index n.immediate) (invalidNode index "runtime exit site is duplicated")

/-- The check of a node that is no parameter. -/
def verifyOperation (index : Nat) (n : Node) (e : Expected) :
    Operation → Except Status Expected
  | .constant => do
      require (constantOk n) (invalidNode index "constant node has call arguments")
      pure e
  | .call => do
      require (callTargetOk n) (invalidNode index "runtime call has no helper target")
      require (n.argumentBegin.toNat = e.callArgument ∧
          n.argumentCount.toNat ≤ f.callArguments.length - e.callArgument)
        (invalidNode index "runtime call argument range is invalid")
      ((f.callArguments.drop e.callArgument).take n.argumentCount.toNat).forM fun argument => do
        require (f.earlier index argument).isSome
          (invalidNode index "runtime call arguments must be earlier SSA values")
        require ((f.earlier index argument).any isScalarValueType)
          (invalidNode index "runtime call argument must be scalar")
      pure { e with callArgument := e.callArgument + n.argumentCount.toNat }
  | .fastCall => do
      require (fastCallTargetOk f.toSideTables n)
        (invalidNode index "fast call target is malformed")
      let descriptor := f.fastCalls.getD n.immediate.toNat {}
      require (n.type = descriptor.returnType ∧
          n.argumentCount.toNat = descriptor.parameterTypes.length ∧
          n.argumentBegin.toNat = e.callArgument ∧
          n.argumentCount.toNat ≤ f.callArguments.length - e.callArgument)
        (invalidNode index "fast call signature is malformed")
      require (((f.callArguments.drop e.callArgument).take n.argumentCount.toNat).map
            (f.earlier index) = descriptor.parameterTypes.map some)
        (invalidNode index "fast call argument does not match its signature")
      pure { e with callArgument := e.callArgument + n.argumentCount.toNat }
  | .vectorConstant => do
      require (isVectorValueType n.type ∧ 0 ≤ n.immediate.toInt ∧
          n.immediate.toNat = e.vectorConstant ∧ e.vectorConstant < f.vectorConstants.length ∧
          noOperands n ∧ noCallArguments n ∧
          ¬ (isMaskVectorType n.type ∧
            ¬ vectorMaskIsCanonical (f.vectorConstants.getD e.vectorConstant 0) n.type))
        (invalidNode index "vector constant is malformed")
      pure { e with vectorConstant := e.vectorConstant + 1 }
  | .vectorSplat => do
      require (vectorSplatOk (f.earlier index) n) (invalidNode index "vector splat is malformed")
      pure e
  | .vectorExtractLane => do
      require (vectorExtractLaneOk (f.earlier index) n)
        (invalidNode index "vector lane extraction is malformed")
      pure e
  | .vectorInsertLane => do
      require (vectorInsertLaneOk (f.earlier index) n)
        (invalidNode index "vector lane insertion is malformed")
      pure e
  | .vectorUnary => do
      require (vectorUnaryOk (f.earlier index) n)
        (invalidNode index "vector unary operation is malformed")
      pure e
  | .vectorBinary => do
      require (vectorBinaryOk (f.earlier index) n)
        (invalidNode index "vector binary operation is malformed")
      pure e
  | .vectorCompare => do
      require (vectorCompareOk (f.earlier index) n)
        (invalidNode index "vector comparison is malformed")
      pure e
  | .vectorSelect => do
      require (0 ≤ n.immediate.toInt ∧ n.immediate.toNat = e.vectorSelect ∧
          e.vectorSelect < f.vectorSelectArguments.length ∧
          vectorSelectOk (f.earlier index) n
            (f.vectorSelectArguments.getD e.vectorSelect .invalid))
        (invalidNode index "vector selection is malformed")
      pure { e with vectorSelect := e.vectorSelect + 1 }
  | .vectorLaneSignMask => do
      require (vectorLaneSignMaskOk (f.earlier index) n)
        (invalidNode index "vector lane-sign extraction is malformed")
      pure e
  | .vectorShuffle => do
      require (0 ≤ n.immediate.toInt ∧ n.immediate.toNat = e.vectorShuffle ∧
          e.vectorShuffle < f.vectorShuffles.length ∧ vectorShuffleOk (f.earlier index) n)
        (invalidNode index "vector shuffle is malformed")
      let shuffle := f.vectorShuffles.getD e.vectorShuffle ⟨Vector.replicate 16 0, 0⟩
      require (shuffleLaneCountOk n shuffle)
        (invalidNode index "vector shuffle lane count is invalid")
      require (shuffleLanesOk shuffle) (invalidNode index "vector shuffle lane is out of range")
      pure { e with vectorShuffle := e.vectorShuffle + 1 }
  | .vectorWiden => do
      require (vectorWidenOk (f.earlier index) n)
        (invalidNode index "vector widening is malformed")
      pure e
  | .memory o => do
      require (n.memoryAccess.toNat = e.memoryAccess ∧ e.memoryAccess < f.memoryAccesses.length)
        (invalidNode index "memory descriptor range is inconsistent")
      let access := f.memoryAccesses.getD e.memoryAccess {}
      require (memoryOk (f.earlier index) f.toSideTables n o access)
        (invalidNode index "bounded memory operation is malformed")
      require (memoryLoadOk n o) (invalidNode index "bounded memory load has a stored value")
      require (memoryStoredOk (f.earlier index) n o)
        (invalidNode index "bounded memory store value is malformed")
      f.requireSiteUnused index n
      pure { e with memoryAccess := e.memoryAccess + 1 }
  | .atomic o => do
      require (n.atomicAccess.toNat = e.atomicAccess ∧ e.atomicAccess < f.atomicAccesses.length)
        (invalidNode index "atomic descriptor range is inconsistent")
      let access := f.atomicAccesses.getD e.atomicAccess {}
      require (atomicOk (f.earlier index) f.toSideTables n o access)
        (invalidNode index "atomic memory operation is malformed")
      require (atomicInputOk (f.earlier index) n o)
        (invalidNode index
          (if o = .load then "atomic load has a stored value" else "atomic input value is malformed"))
      require (atomicDesiredOk (f.earlier index) n o)
        (invalidNode index "atomic compare-exchange desired value is malformed")
      f.requireSiteUnused index n
      pure { e with atomicAccess := e.atomicAccess + 1 }
  | .atomicFence => do
      require (atomicFenceOk n) (invalidNode index "atomic fence is malformed")
      pure e
  | .loadFrame => do
      require (frameOk f.toSideTables n) (invalidNode index "frame operation is malformed")
      require (frameTypeOk f.toSideTables n)
        (invalidNode index "frame operation has an invalid type")
      require (¬ n.lhs.valid) (invalidNode index "frame load has a stored value")
      pure e
  | .storeFrame => do
      require (frameOk f.toSideTables n) (invalidNode index "frame operation is malformed")
      require (frameTypeOk f.toSideTables n)
        (invalidNode index "frame operation has an invalid type")
      require (f.earlier index n.lhs = some n.type)
        (invalidNode index "frame store value is malformed")
      pure e
  | .loadObject => do
      require (objectOk f.toSideTables n)
        (invalidNode index "trusted object operation is malformed")
      require (objectFieldOk n (f.trustedObjects.getD n.trustedObject.toNat {}))
        (invalidNode index "trusted object field is outside its layout")
      require (¬ n.lhs.valid) (invalidNode index "trusted object load has a stored value")
      pure e
  | .storeObject => do
      require (objectOk f.toSideTables n)
        (invalidNode index "trusted object operation is malformed")
      require (objectFieldOk n (f.trustedObjects.getD n.trustedObject.toNat {}))
        (invalidNode index "trusted object field is outside its layout")
      require (f.earlier index n.lhs = some n.type)
        (invalidNode index "trusted object store value is malformed")
      pure e
  | .loadPatchCell => do
      require (loadPatchCellOk f.toSideTables n)
        (invalidNode index "patch cell load is malformed")
      pure e
  | .guardWordNonzero => do
      require (guardOk (f.earlier index) n .word) (invalidNode index "nonzero guard is malformed")
      f.requireSiteUnused index n
      pure e
  | .guardFloatNonzero => do
      require (guardOk (f.earlier index) n .float64)
        (invalidNode index "nonzero guard is malformed")
      f.requireSiteUnused index n
      pure e
  | .safepoint => do
      require (safepointOk n) (invalidNode index "safepoint node is malformed")
      f.requireSiteUnused index n
      pure e
  | .unary o => do
      require (unaryOk (f.earlier index) n o) (invalidNode index "unary operation is malformed")
      pure e
  | .binary o => do
      require ((f.earlier index n.lhs).isSome ∧ (f.earlier index n.rhs).isSome)
        (invalidNode index "binary operands must be earlier SSA definitions")
      require (noCallArguments n) (invalidNode index "binary node has call arguments")
      require (binaryTypesOk (f.earlier index) n o)
        (invalidNode index "binary operands or result have incompatible types")
      pure e

/-- The check of one node. -/
def verifyNode (index : Nat) (n : Node) (e : Expected) : Except Status Expected := do
  require (n.opcode.isMemory ∨ n.memoryAccess = kInvalidIndex)
    (invalidNode index "non-memory node has a memory descriptor")
  require (n.opcode.isAtomicAccess ∨ n.atomicAccess = kInvalidIndex)
    (invalidNode index "non-atomic node has an atomic descriptor")
  require (n.opcode = .op (.atomic .compareExchange) ∨ ¬ n.auxiliary.valid)
    (invalidNode index "non-CAS node has an auxiliary operand")
  require (n.opcode.isFrame ∨ n.frameSlot = kInvalidIndex)
    (invalidNode index "non-frame node has a frame slot")
  require (n.opcode.isObject ∨ n.trustedObject = kInvalidIndex)
    (invalidNode index "non-object node has a trusted object")
  if index < f.parameterCount then
    require (n.opcode = .parameter ∧ n.immediate = BitVec.ofNat 64 index ∧
        n.type = f.parameterType index ∧ isScalarValueType n.type ∧ noCallArguments n)
      (invalidNode index "parameter nodes must lead the function")
    pure e
  else
    match n.opcode with
    | .parameter => throw (invalidNode index "parameter node appears after another value")
    | .op o => f.verifyOperation index n e o

/-- The straight-line verifier. -/
def verify : Except Status Unit := do
  require (f.parameterCount ≤ f.nodes.length)
    ⟨.invalidIr, "parameter count exceeds the number of SSA values", 0⟩
  require (f.memoryRegionCount ≤ kInvalidIndex.toNat)
    ⟨.invalidIr, "memory region count exceeds the IR index range", 0⟩
  require (f.frameSlots.length ≤ kInvalidIndex.toNat)
    ⟨.invalidIr, "frame slot count exceeds the IR index range", 0⟩
  require f.frameSlotsScalar ⟨.invalidIr, "frame slot has an invalid value type", 0⟩
  require (f.trustedObjects.length ≤ kInvalidIndex.toNat)
    ⟨.invalidIr, "trusted object count exceeds the IR index range", 0⟩
  require f.trustedObjectsOk ⟨.invalidIr, "trusted object descriptor is malformed", 0⟩
  require (f.patchCells.length ≤ kInvalidIndex.toNat)
    ⟨.invalidIr, "patch cell count exceeds the IR index range", 0⟩
  require (f.fastCalls.length ≤ kInvalidIndex.toNat)
    ⟨.invalidIr, "fast call count exceeds the IR index range", 0⟩
  require f.fastCallsScalar
    ⟨.invalidIr, "fast call descriptor has a non-scalar signature", 0⟩
  let e ← foldExcept f.verifyNode 0 f.nodes {}
  require (e.callArgument = f.callArguments.length)
    ⟨.invalidIr, "function contains unreferenced call arguments", 0⟩
  require (e.memoryAccess = f.memoryAccesses.length)
    ⟨.invalidIr, "function contains unreferenced memory descriptors", 0⟩
  require (e.atomicAccess = f.atomicAccesses.length)
    ⟨.invalidIr, "function contains unreferenced atomic descriptors", 0⟩
  require (e.vectorConstant = f.vectorConstants.length)
    ⟨.invalidIr, "function contains unreferenced vector constants", 0⟩
  require (e.vectorShuffle = f.vectorShuffles.length)
    ⟨.invalidIr, "function contains unreferenced vector shuffles", 0⟩
  require (e.vectorSelect = f.vectorSelectArguments.length)
    ⟨.invalidIr, "function contains unreferenced vector select operands", 0⟩
  require (f.returnValue.valid ∧ f.returnValue.index < f.nodes.length)
    ⟨.invalidIr, "function has no valid return value", 0⟩
  require (isScalarValueType f.returnType)
    ⟨.invalidIr, "function return type is not supported by the scalar ABI", 0⟩

end Function

/-! ## What a successful check means -/

/-- The descriptor of an in-range trusted-object reference is the one the default-valued lookup
reads. -/
lemma SideTables.exists_trustedObject {Op : Type} {t : SideTables} {n : NodeOf Op}
    (h : n.trustedObject.toNat < t.trustedObjects.length)
    (hfield : objectFieldOk n (t.trustedObjects.getD n.trustedObject.toNat {})) :
    ∃ object, t.trustedObjects[n.trustedObject.toNat]? = some object ∧ objectFieldOk n object := by
  refine ⟨_, List.getElem?_eq_getElem h, ?_⟩
  simpa only [List.getD, List.getElem?_eq_getElem h, Option.getD_some] using hfield

namespace Expected

variable {Op : Type}

/-- The counters after a node of operation `o`. -/
def advance (e : Expected) (o : Operation) (n : NodeOf Op) : Expected :=
  match o with
  | .call | .fastCall => { e with callArgument := e.callArgument + n.argumentCount.toNat }
  | .memory _ => { e with memoryAccess := e.memoryAccess + 1 }
  | .atomic _ => { e with atomicAccess := e.atomicAccess + 1 }
  | .vectorConstant => { e with vectorConstant := e.vectorConstant + 1 }
  | .vectorShuffle => { e with vectorShuffle := e.vectorShuffle + 1 }
  | .vectorSelect => { e with vectorSelect := e.vectorSelect + 1 }
  | _ => e

/-- The node refers to the next entry of the table its operation uses. -/
def Claims (e : Expected) (o : Operation) (n : NodeOf Op) : Prop :=
  match o with
  | .call | .fastCall => n.argumentBegin.toNat = e.callArgument
  | .memory _ => n.memoryAccess.toNat = e.memoryAccess
  | .atomic _ => n.atomicAccess.toNat = e.atomicAccess
  | .vectorConstant => n.immediate.toNat = e.vectorConstant
  | .vectorShuffle => n.immediate.toNat = e.vectorShuffle
  | .vectorSelect => n.immediate.toNat = e.vectorSelect
  | _ => True

end Expected

namespace Function

variable {f : Function}

/-- A successful check of an operation: the node is well typed, it refers to the next entries of
its side table, and its exit site is new. -/
lemma verifyOperation_eq_ok {index : Nat} {n : Node} {e e' : Expected} {o : Operation}
    (bound : e.callArgument ≤ f.callArguments.length) :
    f.verifyOperation index n e o = .ok e' ↔
      Typed f.toSideTables (f.earlier index) o n ∧ e.Claims o n ∧
        (o.isRuntimeExit → f.siteUnused index n.immediate) ∧ e' = e.advance o n := by
  cases o with
  | call =>
      simp only [verifyOperation, bind_eq_ok, forM_eq_ok, pure_eq_ok, Typed, Expected.Claims,
        Expected.advance, require_eq_ok, SideTables.callArgumentsOf, exists_const]
      constructor
      · rintro ⟨ht, ⟨hb, hc⟩, ha, rfl⟩
        have hr : n.argumentBegin.toNat + n.argumentCount.toNat ≤ f.callArguments.length := by
          omega
        rw [if_pos hr, hb]
        exact ⟨⟨ht, _, rfl, fun a h => (ha a h).2⟩, rfl, by simp [Operation.isRuntimeExit], rfl⟩
      · rintro ⟨⟨ht, args, hargs, ha⟩, hb, -, rfl⟩
        split_ifs at hargs with hr
        obtain rfl := Option.some.inj hargs
        rw [hb] at ha
        refine ⟨ht, ⟨hb, by omega⟩, fun a h => ⟨?_, ha a h⟩, rfl⟩
        obtain ⟨t, htype, -⟩ := (Option.any_eq_true ..).mp (ha a h)
        simp [htype]
  | fastCall =>
      simp only [verifyOperation, require_bind_eq_ok, pure_eq_ok, Typed,
        Expected.Claims, Expected.advance, SideTables.callArgumentsOf]
      constructor
      · rintro ⟨ht, ⟨htype, hcount, hb, hc⟩, ha, rfl⟩
        have hr : n.argumentBegin.toNat + n.argumentCount.toNat ≤ f.callArguments.length := by
          omega
        obtain ⟨hlt⟩ : PLift (n.immediate.toNat < f.fastCalls.length) := ⟨ht.2.1⟩
        rw [if_pos hr, hb]
        refine ⟨⟨ht, _, _, List.getElem?_eq_getElem hlt, rfl, ?_, ?_⟩, rfl,
          by simp [Operation.isRuntimeExit], rfl⟩
        · simpa [List.getD, List.getElem?_eq_getElem hlt] using htype
        · simpa [List.getD, List.getElem?_eq_getElem hlt] using ha
      · rintro ⟨⟨ht, d, args, hd, hargs, htype, ha⟩, hb, -, rfl⟩
        split_ifs at hargs with hr
        obtain rfl := Option.some.inj hargs
        have hget : f.fastCalls.getD n.immediate.toNat {} = d := by simp [List.getD, hd]
        have hlen := congrArg List.length ha
        simp only [List.length_map, List.length_take, List.length_drop] at hlen
        rw [hget]
        rw [hb] at ha
        exact ⟨ht, ⟨htype, by omega, hb, by omega⟩, ha, rfl⟩
  | memory o =>
      simp only [verifyOperation, require_bind_eq_ok, requireSiteUnused, Typed, Expected.Claims,
        Expected.advance, Operation.isRuntimeExit, pure_eq_ok, true_implies]
      constructor
      · rintro ⟨⟨hc, hlt⟩, hok, hl, hs, hsite, rfl⟩
        rw [hc]
        refine ⟨⟨_, List.getElem?_eq_getElem hlt, ?_, hl, hs⟩, rfl, hsite, rfl⟩
        simpa only [List.getD, List.getElem?_eq_getElem hlt, Option.getD_some] using hok
      · rintro ⟨⟨access, ha, hok, hl, hs⟩, hc, hsite, rfl⟩
        rw [hc] at ha
        have hget : f.memoryAccesses.getD e.memoryAccess {} = access := by simp [List.getD, ha]
        rw [hget]
        exact ⟨⟨hc, (List.getElem?_eq_some_iff.mp ha).1⟩, hok, hl, hs, hsite, rfl⟩
  | atomic o =>
      simp only [verifyOperation, require_bind_eq_ok, requireSiteUnused, Typed, Expected.Claims,
        Expected.advance, Operation.isRuntimeExit, pure_eq_ok, true_implies]
      constructor
      · rintro ⟨⟨hc, hlt⟩, hok, hi, hd, hsite, rfl⟩
        rw [hc]
        refine ⟨⟨_, List.getElem?_eq_getElem hlt, ?_, hi, hd⟩, rfl, hsite, rfl⟩
        simpa only [List.getD, List.getElem?_eq_getElem hlt, Option.getD_some] using hok
      · rintro ⟨⟨access, ha, hok, hi, hd⟩, hc, hsite, rfl⟩
        rw [hc] at ha
        have hget : f.atomicAccesses.getD e.atomicAccess {} = access := by simp [List.getD, ha]
        rw [hget]
        exact ⟨⟨hc, (List.getElem?_eq_some_iff.mp ha).1⟩, hok, hi, hd, hsite, rfl⟩
  | vectorConstant =>
      simp only [verifyOperation, require_bind_eq_ok, Typed, Expected.Claims,
        Expected.advance, pure_eq_ok]
      constructor
      · rintro ⟨⟨hv, h0, hc, hlt, ho, ha, hm⟩, rfl⟩
        refine ⟨⟨hv, h0, ho, ha, ?_⟩, hc, by simp [Operation.isRuntimeExit], rfl⟩
        rw [hc]
        refine ⟨_, List.getElem?_eq_getElem hlt, fun hmask => ?_⟩
        rw [List.getD, List.getElem?_eq_getElem hlt, Option.getD_some] at hm
        exact not_not.mp fun h => hm ⟨hmask, h⟩
      · rintro ⟨⟨hv, h0, ho, ha, bits, hbits, hm⟩, hc, -, rfl⟩
        rw [hc] at hbits
        have hget : f.vectorConstants.getD e.vectorConstant 0 = bits := by
          simp [List.getD, hbits]
        rw [hget]
        exact ⟨⟨hv, h0, hc, (List.getElem?_eq_some_iff.mp hbits).1, ho, ha,
          fun hmask => hmask.2 (hm hmask.1)⟩, rfl⟩
  | vectorSelect =>
      simp only [verifyOperation, require_bind_eq_ok, Typed, Expected.Claims,
        Expected.advance, pure_eq_ok]
      constructor
      · rintro ⟨⟨h0, hc, hlt, hok⟩, rfl⟩
        rw [List.getD, List.getElem?_eq_getElem hlt, Option.getD_some] at hok
        rw [hc]
        exact ⟨⟨h0, _, List.getElem?_eq_getElem hlt, hok⟩, rfl,
          by simp [Operation.isRuntimeExit], rfl⟩
      · rintro ⟨⟨h0, third, hthird, hok⟩, hc, -, rfl⟩
        rw [hc] at hthird
        have hget : f.vectorSelectArguments.getD e.vectorSelect .invalid = third := by
          simp [List.getD, hthird]
        rw [hget]
        exact ⟨⟨h0, hc, (List.getElem?_eq_some_iff.mp hthird).1, hok⟩, rfl⟩
  | vectorShuffle =>
      simp only [verifyOperation, require_bind_eq_ok, Typed, Expected.Claims,
        Expected.advance, pure_eq_ok]
      constructor
      · rintro ⟨⟨h0, hc, hlt, hok⟩, hcount, hlanes, rfl⟩
        rw [List.getD, List.getElem?_eq_getElem hlt, Option.getD_some] at hcount hlanes
        rw [hc]
        exact ⟨⟨h0, hok, _, List.getElem?_eq_getElem hlt, hcount, hlanes⟩, rfl,
          by simp [Operation.isRuntimeExit], rfl⟩
      · rintro ⟨⟨h0, hok, shuffle, hs, hcount, hlanes⟩, hc, -, rfl⟩
        rw [hc] at hs
        have hget : f.vectorShuffles.getD e.vectorShuffle ⟨Vector.replicate 16 0, 0⟩ = shuffle := by
          simp [List.getD, hs]
        rw [hget]
        exact ⟨⟨h0, hc, (List.getElem?_eq_some_iff.mp hs).1, hok⟩, hcount, hlanes, rfl⟩
  | loadObject | storeObject =>
      simp only [verifyOperation, require_bind_eq_ok, Typed, Expected.Claims,
        Expected.advance, pure_eq_ok, Operation.isRuntimeExit, true_and, Bool.false_eq_true,
        false_implies]
      constructor
      · rintro ⟨hok, hfield, hl, rfl⟩
        exact ⟨⟨hok, SideTables.exists_trustedObject hok.1 hfield, hl⟩, rfl⟩
      · rintro ⟨⟨hok, ⟨object, hobject, hfield⟩, hl⟩, rfl⟩
        exact ⟨hok, by simpa [List.getD, hobject] using hfield, hl, rfl⟩
  | binary o =>
      simp only [verifyOperation, require_bind_eq_ok, Typed, Expected.Claims,
        Expected.advance, pure_eq_ok, Operation.isRuntimeExit, true_and, Bool.false_eq_true,
        false_implies]
      constructor
      · rintro ⟨-, hargs, htypes, rfl⟩
        exact ⟨⟨htypes, hargs⟩, rfl⟩
      · rintro ⟨⟨htypes, hargs⟩, rfl⟩
        exact ⟨by simp [htypes.2.1, htypes.2.2], hargs, htypes, rfl⟩
  | _ =>
      simp only [verifyOperation, require_bind_eq_ok, requireSiteUnused, Typed, Expected.Claims,
        Expected.advance, Operation.isRuntimeExit, pure_eq_ok,
        true_and, and_assoc, false_implies, true_implies, Bool.false_eq_true]

/-- What the verifier guarantees of the node at position `index`, with the counters `e` that the
earlier nodes leave. -/
structure VerifiedNode (f : Function) (index : Nat) (n : Node) (e : Expected) : Prop where
  unused : unusedDescriptorsOk n n.opcode.isMemory n.opcode.isAtomicAccess
    (n.opcode = .op (.atomic .compareExchange)) n.opcode.isFrame n.opcode.isObject
  parameter : index < f.parameterCount → n.opcode = .parameter ∧
    n.immediate = BitVec.ofNat 64 index ∧ n.type = f.parameterType index ∧
    isScalarValueType n.type ∧ noCallArguments n
  operation : f.parameterCount ≤ index → ∃ o, n.opcode = .op o ∧
    Typed f.toSideTables (f.earlier index) o n ∧ e.Claims o n ∧
    (o.isRuntimeExit → f.siteUnused index n.immediate)

/-- The counters after a node. -/
def advanceNode (e : Expected) (n : Node) : Expected :=
  match n.opcode with
  | .parameter => e
  | .op o => e.advance o n

/-- The counters before position `index`. -/
def expectedAt (f : Function) (index : Nat) : Expected :=
  (f.nodes.take index).foldl advanceNode {}

/-- A successful check of a node. -/
lemma verifyNode_eq_ok {index : Nat} {n : Node} {e e' : Expected}
    (bound : e.callArgument ≤ f.callArguments.length) :
    f.verifyNode index n e = .ok e' ↔ f.VerifiedNode index n e ∧ e' = advanceNode e n := by
  simp only [verifyNode, require_bind_eq_ok]
  by_cases hp : index < f.parameterCount
  · simp only [hp, if_true, require_bind_eq_ok, pure_eq_ok]
    constructor
    · rintro ⟨hm, ha, hx, hf, ho, hpar, rfl⟩
      refine ⟨⟨⟨hm, ha, by simpa using hx, hf, ho⟩, fun _ => hpar, fun h => by omega⟩, ?_⟩
      simp [advanceNode, hpar.1]
    · rintro ⟨⟨⟨hm, ha, hx, hf, ho⟩, hpar, -⟩, rfl⟩
      refine ⟨hm, ha, by simpa using hx, hf, ho, hpar hp, ?_⟩
      simp [advanceNode, (hpar hp).1]
  · simp only [hp, if_false]
    constructor
    · rintro ⟨hm, ha, hx, hf, ho, hop⟩
      cases hopcode : n.opcode with
      | parameter => simp [hopcode, throw, throwThe, MonadExceptOf.throw] at hop
      | op o =>
          simp only [hopcode] at hop
          obtain ⟨htyped, hclaims, hsite, rfl⟩ := (verifyOperation_eq_ok bound).mp hop
          refine ⟨⟨⟨hm, ha, by simpa using hx, hf, ho⟩, fun h => absurd h hp,
            fun _ => ⟨o, hopcode, htyped, hclaims, hsite⟩⟩, ?_⟩
          simp [advanceNode, hopcode]
    · rintro ⟨⟨⟨hm, ha, hx, hf, ho⟩, -, hop⟩, rfl⟩
      obtain ⟨o, hopcode, htyped, hclaims, hsite⟩ := hop (by omega)
      refine ⟨hm, ha, by simpa using hx, hf, ho, ?_⟩
      simp only [hopcode]
      refine (verifyOperation_eq_ok bound).mpr ⟨htyped, hclaims, hsite, ?_⟩
      simp [advanceNode, hopcode]

/-- The call-argument counter stays inside its table. -/
lemma advanceNode_callArgument_le {index : Nat} {n : Node} {e : Expected}
    (bound : e.callArgument ≤ f.callArguments.length) (h : f.VerifiedNode index n e) :
    (advanceNode e n).callArgument ≤ f.callArguments.length := by
  by_cases hp : index < f.parameterCount
  · simpa [advanceNode, (h.parameter hp).1] using bound
  · obtain ⟨o, hopcode, htyped, hclaims, -⟩ := h.operation (by omega)
    simp only [advanceNode, hopcode]
    cases o with
    | call =>
        obtain ⟨-, args, hargs, -⟩ := htyped
        simp only [SideTables.callArgumentsOf] at hargs
        split_ifs at hargs with hr
        simp only [Expected.Claims] at hclaims
        simp only [Expected.advance]
        omega
    | fastCall =>
        obtain ⟨-, d, args, -, hargs, -⟩ := htyped
        simp only [SideTables.callArgumentsOf] at hargs
        split_ifs at hargs with hr
        simp only [Expected.Claims] at hclaims
        simp only [Expected.advance]
        omega
    | _ => exact bound

/-- **Verified functions**: everything the verifier guarantees, with the walk over the nodes
replaced by a statement about every position. -/
structure Verified (f : Function) : Prop where
  parameters : f.parameterCount ≤ f.nodes.length
  tables : f.toSideTables.Sound
  node : ∀ index n, f.nodes[index]? = some n → f.VerifiedNode index n (f.expectedAt index)
  claimed : f.expectedAt f.nodes.length =
    { callArgument := f.callArguments.length, memoryAccess := f.memoryAccesses.length,
      atomicAccess := f.atomicAccesses.length, vectorConstant := f.vectorConstants.length,
      vectorShuffle := f.vectorShuffles.length,
      vectorSelect := f.vectorSelectArguments.length }
  returnValue : f.returnValue.valid ∧ f.returnValue.index < f.nodes.length
  returnType : isScalarValueType f.returnType

/-- The verifier accepts exactly the verified functions. -/
lemma verify_eq_ok : f.verify = .ok () ↔ f.Verified := by
  have hfold : ∀ e, foldExcept f.verifyNode 0 f.nodes {} = .ok e ↔
      (∀ j n, f.nodes[j]? = some n → f.VerifiedNode j n (f.expectedAt j)) ∧
        e = f.expectedAt f.nodes.length := by
    intro e
    rw [foldExcept_eq_ok_iff advanceNode (fun i n e => f.VerifiedNode i n e)
      (fun e => e.callArgument ≤ f.callArguments.length)
      (fun i n e e' bound => verifyNode_eq_ok bound)
      (fun i n e bound h => advanceNode_callArgument_le bound h) (Nat.zero_le _)]
    simp [expectedAt]
  simp only [verify, require_bind_eq_ok, bind_eq_ok (x := foldExcept _ _ _ _), hfold,
    require_eq_ok]
  constructor
  · rintro ⟨hparams, hregions, hframes, hscalar, hobjects, hobject, hcells, hcalls, hcall, e,
      ⟨hnodes, rfl⟩, h1, h2, h3, h4, h5, h6, hret, hrettype⟩
    refine ⟨hparams, ⟨⟨hregions, hframes, hobjects, hcells, hcalls⟩, hscalar, hobject, hcall⟩,
      hnodes, ?_, hret, hrettype⟩
    rw [← h1, ← h2, ← h3, ← h4, ← h5, ← h6]
  · rintro ⟨hparams, ⟨⟨hregions, hframes, hobjects, hcells, hcalls⟩, hscalar, hobject, hcall⟩,
      hnodes, hclaimed, hret, hrettype⟩
    refine ⟨hparams, hregions, hframes, hscalar, hobjects, hobject, hcells, hcalls, hcall, _,
      ⟨hnodes, rfl⟩, ?_⟩
    rw [hclaimed]
    exact ⟨rfl, rfl, rfl, rfl, rfl, rfl, hret, hrettype⟩

/-- Every node with an operation obeys its rule. -/
lemma Verified.typed_of_mem (h : f.Verified) {n : Node} (hn : n ∈ f.nodes) {o : Operation}
    (ho : n.opcode = .op o) : ∃ Γ, Typed f.toSideTables Γ o n := by
  obtain ⟨index, hindex⟩ := List.mem_iff_getElem?.mp hn
  have hnode := h.node index n hindex
  by_cases hparameter : index < f.parameterCount
  · rw [(hnode.parameter hparameter).1] at ho
    exact absurd ho (by simp)
  · obtain ⟨o', ho', htyped, -, -⟩ := hnode.operation (not_lt.mp hparameter)
    rw [ho'] at ho
    obtain rfl := Opcode.op.inj ho
    exact ⟨_, htyped⟩

end Function

end UniJit.Ir
