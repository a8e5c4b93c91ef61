import UniJit.Ir.Verifier

/-!
# Building straight-line functions

`FunctionBuilder` appends nodes to a function and answers with the handle of the new value. It
checks little: an operand may be any handle, and what the nodes mean is left to the verifier. The
one thing it refuses is a table that would grow beyond the 32-bit index range; the answer is then
the invalid handle.

A function is a *draft* when it is verified but for its return value and the sites of its exits
(`Drafted`). What is appended to a draft keeps the earlier nodes well typed (`Typed.mono`), so a
draft stays one as long as each new node is well typed where it is appended (`Drafted.append`),
and the verifier accepts a draft exactly when it has a return value and its exit sites are distinct
(`Drafted.verify_eq_ok_iff`).
-/

namespace UniJit.Ir

open UniJit.Lib

/-- The largest word, as the bound of exit sites. -/
def maximumWord : Nat := 2 ^ 63 - 1

/-- The builder holds the function under construction. -/
structure FunctionBuilder where
  function : Function
  deriving DecidableEq, Repr

namespace FunctionBuilder

variable (b : FunctionBuilder)

/-! ## The operations of the builder -/

/-- The constructor: the parameters are the first values. -/
def create (parameterTypes : List ValueType) (memoryRegionCount : Nat := 0) : FunctionBuilder :=
  let types := parameterTypes.take kInvalidIndex.toNat
  ⟨{ parameterTypes := types
     memoryRegionCount := memoryRegionCount
     nodes := types.mapIdx fun index type =>
       { opcode := .parameter, immediate := BitVec.ofNat 64 index, type := type } }⟩

/-- The value of a parameter, invalid past the declared count. -/
def parameter (index : Nat) : Value :=
  if b.function.parameterCount ≤ index then .invalid else .ofIndex index

/-- A node at the end, with the call arguments it refers to. -/
def append (n : Node) (arguments : List Value := []) : Value × FunctionBuilder :=
  if kInvalidIndex.toNat ≤ b.function.nodes.length then (.invalid, b)
  else (.ofIndex b.function.nodes.length, ⟨{ b.function with
    callArguments := b.function.callArguments ++ arguments
    nodes := b.function.nodes ++ [n] }⟩)

/-- Appends a word constant. -/
def constant (value : Word) : Value × FunctionBuilder :=
  b.append { opcode := .op .constant, immediate := value }

/-- Appends a Float64 constant given by its bits. -/
def float64ConstantBits (bits : Word) : Value × FunctionBuilder :=
  b.append { opcode := .op .constant, immediate := bits, type := .float64 }

/-- Appends a binary node; Float64 arithmetic gives a Float64 and every other opcode a word. -/
def appendBinary (opcode : BinaryOpcode) (lhs rhs : Value) : Value × FunctionBuilder :=
  let isFloat := opcode = .floatAdd ∨ opcode = .floatSubtract ∨ opcode = .floatMultiply ∨
    opcode = .floatDivide
  b.append { opcode := .op (.binary opcode), lhs := lhs, rhs := rhs,
             type := if isFloat then .float64 else .word }

/-- Appends an addition. -/
def add (lhs rhs : Value) := b.appendBinary .add lhs rhs
/-- Appends a subtraction. -/
def subtract (lhs rhs : Value) := b.appendBinary .subtract lhs rhs
/-- Appends a multiplication. -/
def multiply (lhs rhs : Value) := b.appendBinary .multiply lhs rhs
/-- Appends a bitwise conjunction. -/
def bitwiseAnd (lhs rhs : Value) := b.appendBinary .bitwiseAnd lhs rhs
/-- Appends a bitwise disjunction. -/
def bitwiseOr (lhs rhs : Value) := b.appendBinary .bitwiseOr lhs rhs
/-- Appends a bitwise exclusive disjunction. -/
def bitwiseXor (lhs rhs : Value) := b.appendBinary .bitwiseXor lhs rhs
/-- Appends a shift to the left. -/
def shiftLeft (value amount : Value) := b.appendBinary .shiftLeft value amount
/-- Appends a floor division. -/
def floorDivide (lhs rhs : Value) := b.appendBinary .floorDivide lhs rhs
/-- Appends a floor remainder. -/
def floorModulo (lhs rhs : Value) := b.appendBinary .floorModulo lhs rhs
/-- Appends a signed comparison. -/
def lessThan (lhs rhs : Value) := b.appendBinary .lessThan lhs rhs
/-- Appends a signed comparison that admits equality. -/
def lessEqual (lhs rhs : Value) := b.appendBinary .lessEqual lhs rhs
/-- Appends an equality test. -/
def equal (lhs rhs : Value) := b.appendBinary .equal lhs rhs
/-- Appends an inequality test. -/
def notEqual (lhs rhs : Value) := b.appendBinary .notEqual lhs rhs
/-- Appends a Float64 addition. -/
def float64Add (lhs rhs : Value) := b.appendBinary .floatAdd lhs rhs
/-- Appends a Float64 subtraction. -/
def float64Subtract (lhs rhs : Value) := b.appendBinary .floatSubtract lhs rhs
/-- Appends a Float64 multiplication. -/
def float64Multiply (lhs rhs : Value) := b.appendBinary .floatMultiply lhs rhs
/-- Appends a Float64 division. -/
def float64Divide (lhs rhs : Value) := b.appendBinary .floatDivide lhs rhs
/-- Appends a Float64 comparison. -/
def float64LessThan (lhs rhs : Value) := b.appendBinary .floatLessThan lhs rhs
/-- Appends a Float64 comparison that admits equality. -/
def float64LessEqual (lhs rhs : Value) := b.appendBinary .floatLessEqual lhs rhs
/-- Appends a Float64 equality test. -/
def float64Equal (lhs rhs : Value) := b.appendBinary .floatEqual lhs rhs
/-- Appends a Float64 inequality test. -/
def float64NotEqual (lhs rhs : Value) := b.appendBinary .floatNotEqual lhs rhs

/-- Appends a wrapping negation. -/
def negate (value : Value) : Value × FunctionBuilder :=
  b.append { opcode := .op (.unary .negate), lhs := value }

/-- Appends a bitwise complement. -/
def bitwiseNot (value : Value) : Value × FunctionBuilder :=
  b.append { opcode := .op (.unary .bitwiseNot), lhs := value }

/-- Appends a Float64 sign change. -/
def float64Negate (value : Value) : Value × FunctionBuilder :=
  b.append { opcode := .op (.unary .floatNegate), lhs := value, type := .float64 }

/-- A node that may leave the function at a site. -/
def appendExit (n : Node) (site : Nat) : Value × FunctionBuilder :=
  if maximumWord < site then (.invalid, b)
  else b.append { n with immediate := BitVec.ofNat 64 site }

/-- Appends a guard that exits at `site` on a zero Float64. -/
def guardFloat64Nonzero (value : Value) (site : Nat) : Value × FunctionBuilder :=
  b.appendExit { opcode := .op .guardFloatNonzero, lhs := value } site

/-- Appends a guard that exits at `site` on a zero word. -/
def guardWordNonzero (value : Value) (site : Nat) : Value × FunctionBuilder :=
  b.appendExit { opcode := .op .guardWordNonzero, lhs := value } site

/-- Appends a poll that may exit at `site`. -/
def safepoint (site : Nat) : Value × FunctionBuilder :=
  b.appendExit { opcode := .op .safepoint } site

/-- A new fast-call slot, as a 32-bit index that may be invalid. -/
def createFastCall (parameterTypes : List ValueType) (returnType : ValueType) :
    BitVec 32 × FunctionBuilder :=
  if kInvalidIndex.toNat ≤ b.function.fastCalls.length then (kInvalidIndex, b)
  else (BitVec.ofNat 32 b.function.fastCalls.length, ⟨{ b.function with
    fastCalls := b.function.fastCalls ++ [⟨parameterTypes, returnType⟩] }⟩)

/-- Appends a fast call whose arguments still fit the side table. -/
def fastCall (target : BitVec 32) (arguments : List Value) : Value × FunctionBuilder :=
  if kInvalidIndex.toNat < arguments.length ∨
      kInvalidIndex.toNat - arguments.length < b.function.callArguments.length then (.invalid, b)
  else b.append
    { opcode := .op .fastCall
      immediate := target.setWidth 64
      type := (b.function.fastCalls[target.toNat]?.map (·.returnType)).getD .word
      argumentBegin := BitVec.ofNat 32 b.function.callArguments.length
      argumentCount := BitVec.ofNat 32 arguments.length } arguments

/-- A new patch cell, as a 32-bit index that may be invalid. -/
def createPatchCell (initialValue : Word) (kind : PatchCellKind) : BitVec 32 × FunctionBuilder :=
  if kInvalidIndex.toNat ≤ b.function.patchCells.length then (kInvalidIndex, b)
  else (BitVec.ofNat 32 b.function.patchCells.length, ⟨{ b.function with
    patchCells := b.function.patchCells ++ [⟨initialValue, kind⟩] }⟩)

/-- Appends a read of a patch cell. -/
def loadPatchCell (cell : BitVec 32) : Value × FunctionBuilder :=
  b.append { opcode := .op .loadPatchCell, immediate := cell.setWidth 64 }

/-- Names the returned value, which must be an existing scalar. -/
def setReturn (value : Value) : Except Status FunctionBuilder := do
  require (value.valid ∧ value.index < b.function.nodes.length)
    ⟨.invalidArgument, "return value is not in the function", 0⟩
  require (isScalarValueType (b.function.valueType value))
    ⟨.invalidArgument, "the scalar invocation ABI cannot return a vector value", 0⟩
  pure ⟨{ b.function with returnValue := value }⟩

/-- Hands out the function as it stands. -/
def build : Function := b.function

end FunctionBuilder

/-! ## Typing in larger tables -/

/-- Tables that have grown at their ends. -/
structure SideTables.Extends (t t' : SideTables) : Prop where
  callArguments : t.callArguments <+: t'.callArguments
  fastCalls : t.fastCalls <+: t'.fastCalls
  memoryRegionCount : t.memoryRegionCount ≤ t'.memoryRegionCount
  memoryAccesses : t.memoryAccesses <+: t'.memoryAccesses
  atomicAccesses : t.atomicAccesses <+: t'.atomicAccesses
  frameSlots : t.frameSlots <+: t'.frameSlots
  trustedObjects : t.trustedObjects <+: t'.trustedObjects
  patchCells : t.patchCells <+: t'.patchCells
  vectorConstants : t.vectorConstants <+: t'.vectorConstants
  vectorShuffles : t.vectorShuffles <+: t'.vectorShuffles
  vectorSelectArguments : t.vectorSelectArguments <+: t'.vectorSelectArguments

section mono

variable {Op : Type} {t t' : SideTables} {Γ Γ' : Value → Option ValueType} {n : NodeOf Op}

/-- Tables extend themselves. -/
lemma SideTables.Extends.refl (t : SideTables) : t.Extends t :=
  ⟨List.prefix_rfl, List.prefix_rfl, le_rfl, List.prefix_rfl, List.prefix_rfl, List.prefix_rfl,
    List.prefix_rfl, List.prefix_rfl, List.prefix_rfl, List.prefix_rfl, List.prefix_rfl⟩

/-- An entry of a prefix is the entry of the whole. -/
lemma getElem?_of_prefix {α : Type} {as bs : List α} (h : as <+: bs) {i : Nat} {a : α}
    (ha : as[i]? = some a) : bs[i]? = some a := by
  obtain ⟨cs, rfl⟩ := h
  rw [List.getElem?_append_left (List.getElem?_eq_some_iff.mp ha).1]
  exact ha

/-- Call arguments already recorded stay under longer tables. -/
lemma callArgumentsOf_mono (ht : t.Extends t') {arguments : List Value}
    (h : t.callArgumentsOf n = some arguments) : t'.callArgumentsOf n = some arguments := by
  obtain ⟨more, hmore⟩ := ht.callArguments
  simp only [SideTables.callArgumentsOf] at h ⊢
  split_ifs at h with hle
  rw [← hmore, if_pos (by simp only [List.length_append]; omega)]
  rw [List.drop_append_of_le_length (by omega), List.take_append_of_le_length (by simp; omega)]
  exact h

/-- A test passed by a value's type stays passed when more types are known. -/
lemma any_mono {p : ValueType → Bool} (hΓ : ∀ v type, Γ v = some type → Γ' v = some type)
    {v : Value} (h : (Γ v).any p = true) : (Γ' v).any p = true := by
  obtain ⟨type, htype, hp⟩ := (Option.any_eq_true ..).mp h
  exact (Option.any_eq_true ..).mpr ⟨type, hΓ v type htype, hp⟩

/-- A node that is well typed stays so when the tables and the usable values grow. -/
lemma Typed.mono {o : Operation} (ht : t.Extends t')
    (hΓ : ∀ v type, Γ v = some type → Γ' v = some type) (h : Typed t Γ o n) : Typed t' Γ' o n := by
  cases o with
  | constant => exact h
  | binary o => exact ⟨⟨h.1.1, hΓ _ _ h.1.2.1, hΓ _ _ h.1.2.2⟩, h.2⟩
  | unary o => exact ⟨hΓ _ _ h.1, h.2⟩
  | guardWordNonzero => exact ⟨h.1, h.2.1, hΓ _ _ h.2.2.1, h.2.2.2⟩
  | guardFloatNonzero => exact ⟨h.1, h.2.1, hΓ _ _ h.2.2.1, h.2.2.2⟩
  | call =>
      obtain ⟨htarget, arguments, harguments, hscalar⟩ := h
      exact ⟨htarget, arguments, callArgumentsOf_mono ht harguments,
        fun a ha => any_mono hΓ (hscalar a ha)⟩
  | fastCall =>
      obtain ⟨⟨hpos, hlt, hnone⟩, descriptor, arguments, hdescriptor, harguments, htype,
        hmatch⟩ := h
      refine ⟨⟨hpos, lt_of_lt_of_le hlt ht.fastCalls.length_le, hnone⟩, descriptor, arguments,
        getElem?_of_prefix ht.fastCalls hdescriptor, callArgumentsOf_mono ht harguments, htype, ?_⟩
      apply List.ext_getElem?
      intro i
      have hi := congrArg (·[i]?) hmatch
      simp only [List.getElem?_map] at hi ⊢
      cases hargument : arguments[i]? with
      | none => simpa [hargument] using hi
      | some a =>
          cases hparameter : descriptor.parameterTypes[i]? with
          | none => simp [hargument, hparameter] at hi
          | some type =>
              have ha : Γ a = some type := by simpa [hargument, hparameter] using hi
              simp [hΓ a type ha]
  | safepoint => exact h
  | memory o =>
      obtain ⟨access, haccess, hok, hload, hstored⟩ := h
      refine ⟨access, getElem?_of_prefix ht.memoryAccesses haccess, ?_, hload, ?_⟩
      · obtain ⟨hregion, h₁, h₂, h₃, h₄, h₅, h₆, h₇, h₈, h₉, hoperand, h₁₀⟩ := hok
        exact ⟨lt_of_lt_of_le hregion ht.memoryRegionCount, h₁, h₂, h₃, h₄, h₅, h₆, h₇, h₈, h₉,
          hΓ _ _ hoperand, h₁₀⟩
      · exact fun hstore => hΓ _ _ (hstored hstore)
  | atomic o =>
      obtain ⟨access, haccess, hok, hinput, hdesired⟩ := h
      refine ⟨access, getElem?_of_prefix ht.atomicAccesses haccess, ?_, ?_, ?_⟩
      · obtain ⟨hregion, h₁, h₂, h₃, h₄, h₅, h₆, h₇, h₈, h₉, h₁₀, hoperand, h₁₁⟩ := hok
        exact ⟨lt_of_lt_of_le hregion ht.memoryRegionCount, h₁, h₂, h₃, h₄, h₅, h₆, h₇, h₈, h₉,
          h₁₀, hΓ _ _ hoperand, h₁₁⟩
      · unfold atomicInputOk at hinput ⊢
        split_ifs at hinput ⊢
        · exact hinput
        · exact hΓ _ _ hinput
      · exact fun hexchange => hΓ _ _ (hdesired hexchange)
  | atomicFence => exact h
  | loadFrame =>
      obtain ⟨⟨hlt, hok⟩, htype, hlhs⟩ := h
      obtain ⟨slot, hslot, heq⟩ := Option.map_eq_some_iff.mp htype
      exact ⟨⟨lt_of_lt_of_le hlt ht.frameSlots.length_le, hok⟩,
        Option.map_eq_some_iff.mpr ⟨slot, getElem?_of_prefix ht.frameSlots hslot, heq⟩, hlhs⟩
  | storeFrame =>
      obtain ⟨⟨hlt, hok⟩, htype, hlhs⟩ := h
      obtain ⟨slot, hslot, heq⟩ := Option.map_eq_some_iff.mp htype
      exact ⟨⟨lt_of_lt_of_le hlt ht.frameSlots.length_le, hok⟩,
        Option.map_eq_some_iff.mpr ⟨slot, getElem?_of_prefix ht.frameSlots hslot, heq⟩,
        hΓ _ _ hlhs⟩
  | loadObject =>
      obtain ⟨⟨hlt, hok⟩, ⟨object, hobject, hfield⟩, hlhs⟩ := h
      exact ⟨⟨lt_of_lt_of_le hlt ht.trustedObjects.length_le, hok⟩,
        ⟨object, getElem?_of_prefix ht.trustedObjects hobject, hfield⟩, hlhs⟩
  | storeObject =>
      obtain ⟨⟨hlt, hok⟩, ⟨object, hobject, hfield⟩, hlhs⟩ := h
      exact ⟨⟨lt_of_lt_of_le hlt ht.trustedObjects.length_le, hok⟩,
        ⟨object, getElem?_of_prefix ht.trustedObjects hobject, hfield⟩, hΓ _ _ hlhs⟩
  | loadPatchCell => exact ⟨h.1, lt_of_lt_of_le h.2.1 ht.patchCells.length_le, h.2.2⟩
  | vectorConstant =>
      obtain ⟨h₁, h₂, h₃, h₄, bits, hbits, hmask⟩ := h
      exact ⟨h₁, h₂, h₃, h₄, bits, getElem?_of_prefix ht.vectorConstants hbits, hmask⟩
  | vectorSplat => exact ⟨h.1, h.2.1, hΓ _ _ h.2.2.1, h.2.2.2⟩
  | vectorExtractLane => exact ⟨h.1, h.2.1, any_mono hΓ h.2.2.1, h.2.2.2⟩
  | vectorInsertLane =>
      exact ⟨h.1, h.2.1, hΓ _ _ h.2.2.1, hΓ _ _ h.2.2.2.1, h.2.2.2.2⟩
  | vectorUnary => exact ⟨h.1, h.2.1, hΓ _ _ h.2.2.1, h.2.2.2⟩
  | vectorBinary => exact ⟨h.1, hΓ _ _ h.2.1, hΓ _ _ h.2.2.1, h.2.2.2⟩
  | vectorCompare =>
      obtain ⟨hany, hnone⟩ := h
      refine ⟨?_, hnone⟩
      obtain ⟨source, hsource, hp⟩ := (Option.any_eq_true ..).mp hany
      simp only [Bool.and_eq_true, decide_eq_true_eq] at hp
      refine (Option.any_eq_true ..).mpr ⟨source, hΓ _ _ hsource, ?_⟩
      simp only [Bool.and_eq_true, decide_eq_true_eq]
      exact ⟨⟨hΓ _ _ hp.1.1, hp.1.2⟩, hp.2⟩
  | vectorSelect =>
      obtain ⟨hpos, third, hthird, hmask, htype, hrhs, hlast, hnone⟩ := h
      exact ⟨hpos, third, getElem?_of_prefix ht.vectorSelectArguments hthird, any_mono hΓ hmask,
        htype, hΓ _ _ hrhs, hΓ _ _ hlast, hnone⟩
  | vectorLaneSignMask => exact ⟨h.1, any_mono hΓ h.2.1, h.2.2⟩
  | vectorShuffle =>
      obtain ⟨hpos, ⟨htype, hlhs, hnone⟩, shuffle, hshuffle, hlanes⟩ := h
      exact ⟨hpos, ⟨htype, hΓ _ _ hlhs, hnone⟩, shuffle,
        getElem?_of_prefix ht.vectorShuffles hshuffle, hlanes⟩
  | vectorWiden => exact ⟨h.1, h.2.1, any_mono hΓ h.2.2.1, h.2.2.2⟩

end mono

/-! ## Drafts -/

namespace Function

variable {f : Function}

/-- What the verifier asks of a node, but for the site of its exit. -/
structure DraftNode (f : Function) (index : Nat) (n : Node) (e : Expected) : Prop where
  unused : unusedDescriptorsOk n n.opcode.isMemory n.opcode.isAtomicAccess
    (n.opcode = .op (.atomic .compareExchange)) n.opcode.isFrame n.opcode.isObject
  parameter : index < f.parameterCount → n.opcode = .parameter ∧
    n.immediate = BitVec.ofNat 64 index ∧ n.type = f.parameterType index ∧
    isScalarValueType n.type ∧ noCallArguments n
  operation : f.parameterCount ≤ index → ∃ o, n.opcode = .op o ∧
    Typed f.toSideTables (f.earlier index) o n ∧ e.Claims o n

/-- What the verifier asks of a function, but for its exit sites and its return value. -/
structure Drafted (f : Function) : Prop where
  parameters : f.parameterCount ≤ f.nodes.length
  tables : f.toSideTables.Sound
  node : ∀ index n, f.nodes[index]? = some n → f.DraftNode index n (f.expectedAt index)
  claimed : f.expectedAt f.nodes.length =
    { callArgument := f.callArguments.length, memoryAccess := f.memoryAccesses.length,
      atomicAccess := f.atomicAccesses.length, vectorConstant := f.vectorConstants.length,
      vectorShuffle := f.vectorShuffles.length,
      vectorSelect := f.vectorSelectArguments.length }

/-- The sites at which a function may be left, in order. -/
def exitSites (f : Function) : List Word :=
  (f.nodes.filter (·.opcode.isRuntimeExit)).map (·.immediate)

/-- Sites are distinct exactly when each exit's site is unused by the nodes before it. -/
lemma nodup_exitSites_iff : f.exitSites.Nodup ↔ ∀ (index : Nat) n, f.nodes[index]? = some n →
    n.opcode.isRuntimeExit = true → f.siteUnused index n.immediate := by
  rw [exitSites, List.Nodup, List.pairwise_map, List.pairwise_filter, List.pairwise_iff_getElem]
  constructor
  · intro hpairs index n hn hexit previous hprevious hsame
    obtain ⟨hlt, rfl⟩ := List.getElem?_eq_some_iff.mp hn
    obtain ⟨i, hi, rfl⟩ := List.mem_take_iff_getElem.mp hprevious
    exact hpairs i index (by omega) hlt (by omega) hsame.1 hexit hsame.2
  · intro hunused i j hi hj hij hexit hexit' hsame
    apply hunused j f.nodes[j] (List.getElem?_eq_getElem hj) hexit' f.nodes[i] _ ⟨hexit, hsame⟩
    exact List.mem_take_iff_getElem.mpr ⟨i, by omega, rfl⟩

/-- The verifier accepts a draft exactly when it returns a scalar and leaves at distinct sites. -/
lemma Drafted.verify_eq_ok_iff (h : f.Drafted) : f.verify = .ok () ↔
    (f.returnValue.valid ∧ f.returnValue.index < f.nodes.length) ∧
      isScalarValueType f.returnType ∧ f.exitSites.Nodup := by
  rw [verify_eq_ok, nodup_exitSites_iff]
  constructor
  · intro hverified
    refine ⟨hverified.returnValue, hverified.returnType, ?_⟩
    intro index n hn hexit
    by_cases hparameter : index < f.parameterCount
    · rw [((hverified.node index n hn).parameter hparameter).1] at hexit
      simp [Opcode.isRuntimeExit, Opcode.operation?] at hexit
    · obtain ⟨o, ho, -, -, hsite⟩ := (hverified.node index n hn).operation (by omega)
      apply hsite
      simpa [ho, Opcode.isRuntimeExit, Opcode.operation?] using hexit
  · intro ⟨hreturn, htype, hunused⟩
    refine ⟨h.parameters, h.tables, ?_, h.claimed, hreturn, htype⟩
    intro index n hn
    have hnode := h.node index n hn
    refine ⟨hnode.unused, hnode.parameter, ?_⟩
    intro hoperation
    obtain ⟨o, ho, htyped, hclaims⟩ := hnode.operation hoperation
    refine ⟨o, ho, htyped, hclaims, ?_⟩
    intro hexit
    apply hunused index n hn
    simpa [ho, Opcode.isRuntimeExit, Opcode.operation?] using hexit

/-- A node at the end, with the call arguments it refers to. -/
def withNode (f : Function) (n : Node) (arguments : List Value) : Function :=
  { f with callArguments := f.callArguments ++ arguments, nodes := f.nodes ++ [n] }

/-- Appending a node does not change what is expected at an earlier index. -/
lemma expectedAt_withNode {n : Node} {arguments : List Value} {index : Nat}
    (h : index ≤ f.nodes.length) :
    (f.withNode n arguments).expectedAt index = f.expectedAt index := by
  simp only [expectedAt, withNode, List.take_append_of_le_length h]

/-- Appending a node does not change which values precede an earlier index. -/
lemma earlier_withNode {n : Node} {arguments : List Value} {index : Nat} {v : Value}
    (h : index ≤ f.nodes.length) :
    (f.withNode n arguments).earlier index v = f.earlier index v := by
  simp only [earlier, withNode]
  split_ifs with hv
  · rw [List.getElem?_append_left (by omega)]
  · rfl

/-- Appending a node extends the side tables. -/
lemma extends_withNode (f : Function) (n : Node) (arguments : List Value) :
    f.toSideTables.Extends (f.withNode n arguments).toSideTables :=
  { SideTables.Extends.refl f.toSideTables with
    callArguments := List.prefix_append _ _ }

/-- Appending a node keeps the side tables sound. -/
lemma sound_withNode {n : Node} {arguments : List Value} (h : f.toSideTables.Sound) :
    (f.withNode n arguments).toSideTables.Sound :=
  ⟨h.indexRanges, h.frameSlots, h.trustedObjects, h.fastCalls⟩

/-- **Append.** A draft grows by a node that is well typed at its end. -/
lemma Drafted.append (h : f.Drafted) {n : Node} {arguments : List Value} {o : Operation}
    (ho : n.opcode = .op o)
    (hunused : unusedDescriptorsOk n n.opcode.isMemory n.opcode.isAtomicAccess
      (n.opcode = .op (.atomic .compareExchange)) n.opcode.isFrame n.opcode.isObject)
    (htyped : Typed (f.withNode n arguments).toSideTables (f.earlier f.nodes.length) o n)
    (hclaims : (f.expectedAt f.nodes.length).Claims o n)
    (hadvance : (f.expectedAt f.nodes.length).advance o n =
      { f.expectedAt f.nodes.length with
        callArgument := f.callArguments.length + arguments.length }) :
    (f.withNode n arguments).Drafted where
  parameters := by
    have := h.parameters
    simp only [withNode, parameterCount, List.length_append] at this ⊢
    omega
  tables := sound_withNode h.tables
  node := by
    intro index m hm
    rw [withNode, List.getElem?_append] at hm
    split_ifs at hm with hlt
    · have hnode := h.node index m hm
      rw [expectedAt_withNode hlt.le]
      refine ⟨hnode.unused, hnode.parameter, ?_⟩
      intro hoperation
      obtain ⟨o', ho', htyped', hclaims'⟩ := hnode.operation hoperation
      refine ⟨o', ho', htyped'.mono (extends_withNode f n arguments) ?_, hclaims'⟩
      intro v type hv
      rw [earlier_withNode hlt.le]
      exact hv
    · obtain rfl := List.mem_singleton.mp (List.mem_of_getElem? hm)
      obtain rfl : index = f.nodes.length := by
        have := (List.getElem?_eq_some_iff.mp hm).1
        simp only [List.length_singleton] at this
        omega
      rw [expectedAt_withNode le_rfl]
      refine ⟨hunused, fun hparameter => ?_, fun _ => ⟨o, ho, ?_, hclaims⟩⟩
      · exact absurd h.parameters (not_le.mpr hparameter)
      · refine htyped.mono (SideTables.Extends.refl _) ?_
        intro v type hv
        rw [earlier_withNode le_rfl]
        exact hv
  claimed := by
    have hlast : (f.withNode n arguments).expectedAt (f.withNode n arguments).nodes.length =
        (f.expectedAt f.nodes.length).advance o n := by
      simp only [expectedAt, List.take_length]
      simp [withNode, advanceNode, ho]
    rw [hlast, hadvance, h.claimed]
    simp [withNode]

/-- The tables grow, except for those whose entries belong to one node each. -/
lemma Drafted.retable (h : f.Drafted) {t : SideTables} (hextends : f.toSideTables.Extends t)
    (hsound : t.Sound) (hcall : t.callArguments = f.callArguments)
    (hmemory : t.memoryAccesses = f.memoryAccesses) (hatomic : t.atomicAccesses = f.atomicAccesses)
    (hconstants : t.vectorConstants = f.vectorConstants)
    (hshuffles : t.vectorShuffles = f.vectorShuffles)
    (hselects : t.vectorSelectArguments = f.vectorSelectArguments) :
    ({ f with toSideTables := t } : Function).Drafted where
  parameters := h.parameters
  tables := hsound
  node := by
    intro index n hn
    have hnode := h.node index n hn
    refine ⟨hnode.unused, hnode.parameter, ?_⟩
    intro hoperation
    obtain ⟨o, ho, htyped, hclaims⟩ := hnode.operation hoperation
    exact ⟨o, ho, htyped.mono hextends fun _ _ hv => hv, hclaims⟩
  claimed := by
    have hclaimed := h.claimed
    rw [← hcall, ← hmemory, ← hatomic, ← hconstants, ← hshuffles, ← hselects] at hclaimed
    exact hclaimed

/-- A draft says nothing of the return value. -/
lemma Drafted.withReturn (h : f.Drafted) (value : Value) :
    ({ f with returnValue := value } : Function).Drafted where
  parameters := h.parameters
  tables := h.tables
  node := by
    intro index n hn
    have hnode := h.node index n hn
    exact ⟨hnode.unused, hnode.parameter, hnode.operation⟩
  claimed := h.claimed

end Function

/-! ## What the builder makes -/

/-- The operations whose nodes own entries of a side table. -/
def Operation.usesTables : Operation → Bool
  | .call | .fastCall | .memory _ | .atomic _ => true
  | .vectorConstant | .vectorShuffle | .vectorSelect => true
  | _ => false

/-- An operation without side tables claims nothing of them. -/
lemma Expected.claims_of_plain {Op : Type} {o : Operation} {e : Expected} {n : NodeOf Op}
    (h : o.usesTables = false) : e.Claims o n := by
  cases o with
  | call | fastCall | memory | atomic | vectorConstant | vectorShuffle | vectorSelect =>
      simp [Operation.usesTables] at h
  | _ => trivial

/-- An operation without side tables does not advance their cursors. -/
lemma Expected.advance_of_plain {Op : Type} {o : Operation} {e : Expected} {n : NodeOf Op}
    (h : o.usesTables = false) : e.advance o n = e := by
  cases o with
  | call | fastCall | memory | atomic | vectorConstant | vectorShuffle | vectorSelect =>
      simp [Operation.usesTables] at h
  | _ => rfl

lemma not_valid_invalid : ¬ Value.invalid.valid := by simp [Value.invalid]

/-- Below the node limit an append adds the node and returns its index. -/
lemma FunctionBuilder.append_eq {b : FunctionBuilder} {n : Node} {arguments : List Value}
    (h : b.function.nodes.length < kInvalidIndex.toNat) :
    b.append n arguments =
      (.ofIndex b.function.nodes.length, ⟨b.function.withNode n arguments⟩) := by
  rw [append, if_neg (not_le.mpr h)]
  rfl

/-- The parameters alone are a draft. -/
lemma FunctionBuilder.drafted_create {types : List ValueType}
    (hscalar : ∀ type ∈ types, isScalarValueType type) :
    (FunctionBuilder.create types).function.Drafted := by
  have hlength : (FunctionBuilder.create types).function.nodes.length =
      (FunctionBuilder.create types).function.parameterCount := by
    simp [FunctionBuilder.create, Function.parameterCount]
  refine ⟨hlength.ge, ?_, ?_, ?_⟩
  · show SideTables.Sound {}
    exact ⟨by decide, by decide, by decide, by decide⟩
  · intro index n hn
    have hlt := (List.getElem?_eq_some_iff.mp hn).1
    simp only [FunctionBuilder.create, List.getElem?_mapIdx, Option.map_eq_some_iff] at hn
    obtain ⟨type, htype, rfl⟩ := hn
    refine ⟨⟨.inr rfl, .inr rfl, .inr not_valid_invalid, .inr rfl, .inr rfl⟩,
      fun _ => ⟨rfl, rfl, ?_, ?_, rfl, rfl⟩, fun hle => ?_⟩
    · simp [Function.parameterType, FunctionBuilder.create, List.getD, htype]
    · exact hscalar type (List.mem_of_mem_take (List.mem_of_getElem? htype))
    · omega
  · have hfold : ∀ (nodes : List Node) (e : Expected), (∀ n ∈ nodes, n.opcode = .parameter) →
        nodes.foldl Function.advanceNode e = e := by
      intro nodes
      induction nodes with
      | nil => simp
      | cons n nodes ih =>
          intro e hall
          have hn := hall n List.mem_cons_self
          rw [List.foldl_cons, Function.advanceNode, hn]
          exact ih e fun m hm => hall m (List.mem_cons_of_mem n hm)
    rw [Function.expectedAt, List.take_length, hfold]
    · rfl
    · intro n hn
      simp only [FunctionBuilder.create, List.mem_mapIdx] at hn
      obtain ⟨_, _, rfl⟩ := hn
      rfl

end UniJit.Ir
