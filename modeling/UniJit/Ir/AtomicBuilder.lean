import UniJit.Ir.Builder
import UniJit.Ir.Instruction

/-!
# Building atomic operations

The builder has no success flag of a compare-exchange to ask the machine for: it compares the value
that the operation observed with the one that was expected. An access reports a narrow value with
zeros above it, so the expected value is cut down to the width of the cell first, and the operation
is built with the cut value.
-/

namespace UniJit.Ir

/-! ## The operations of the builder -/

namespace FunctionBuilder

variable (b : FunctionBuilder)

/-- An atomic operation at the end, with an access descriptor of its own. -/
def appendAtomic (opcode : AtomicOpcode) (byteOffset value auxiliary : Value)
    (access : AtomicAccessDescriptor) (site : Nat) : Value × FunctionBuilder :=
  if kInvalidIndex.toNat ≤ b.function.nodes.length ∨
      kInvalidIndex.toNat ≤ b.function.atomicAccesses.length ∨ maximumWord < site then (.invalid, b)
  else (.ofIndex b.function.nodes.length, ⟨{ b.function with
    atomicAccesses := b.function.atomicAccesses ++ [access]
    nodes := b.function.nodes ++
      [{ opcode := .op (.atomic opcode), lhs := byteOffset, rhs := value
         immediate := BitVec.ofNat 64 site, auxiliary := auxiliary
         atomicAccess := BitVec.ofNat 32 b.function.atomicAccesses.length }] }⟩)

/-- A compare-exchange whose result is the value found in memory. -/
def atomicCompareExchangeObserved (byteOffset expected desired : Value)
    (access : AtomicAccessDescriptor) (site : Nat) : Value × FunctionBuilder :=
  b.appendAtomic .compareExchange byteOffset expected desired access site

/-- The expected value, without the bits that a narrow cell does not have. -/
def normalizeExpected (expected : Value) (width : Nat) : Value × FunctionBuilder :=
  if width ≠ 0 ∧ width < 8 then
    let (mask, b) := b.constant ((1 <<< (width * 8)) - 1)
    b.bitwiseAnd expected mask
  else (expected, b)

/-- The observed value and the success flag. -/
def atomicCompareExchange (byteOffset expected desired : Value) (access : AtomicAccessDescriptor)
    (site : Nat) : (Value × Value) × FunctionBuilder :=
  let (normalized, b) := b.normalizeExpected expected (memoryWidthBytes access.memory.width)
  let (observed, b) := b.atomicCompareExchangeObserved byteOffset normalized desired access site
  if ¬ observed.valid then ((.invalid, .invalid), b)
  else
    let (flag, b) := b.equal observed normalized
    ((observed, flag), b)

end FunctionBuilder

/-! ## What is built -/

/-- A node of a function, with the operand context it was built in. -/
def Function.NodeAt (f : Function) (v : Value) (n : Node) : Prop := f.nodes[v.index]? = some n

/-- Words for the values of a function that agree with its constants and its binary operations, as
the words of a run do wherever they are kept. -/
def Function.Computes (float : FloatUnit) (f : Function) (word : Value → Word) : Prop :=
  ∀ v n, v.valid → f.NodeAt v n →
    (n.opcode = .op .constant → word v = n.immediate) ∧
      ∀ o, n.opcode = .op (.binary o) → word v = evaluateBinary float o (word n.lhs) (word n.rhs)

section built

variable {b b' : FunctionBuilder} {n : Node} {v : Value}

/-- What a builder appends stays where it is. -/
lemma Function.NodeAt.append {f f' : Function} (h : f.NodeAt v n) {nodes : List Node}
    (hnodes : f'.nodes = f.nodes ++ nodes) : f'.NodeAt v n := by
  unfold Function.NodeAt at h ⊢
  rw [hnodes, List.getElem?_append_left (List.getElem?_eq_some_iff.mp h).1, h]

/-- A node at the end is the value that is answered, if there is room. -/
lemma nodeAt_of_append (h : b.append n = (v, b'))
    (hroom : b.function.nodes.length < kInvalidIndex.toNat) :
    v.valid ∧ b'.function.NodeAt v n ∧ b'.function.nodes = b.function.nodes ++ [n] := by
  rw [FunctionBuilder.append_eq hroom] at h
  cases h
  refine ⟨Value.valid_ofIndex hroom, ?_, rfl⟩
  unfold Function.NodeAt
  rw [Value.index_ofIndex hroom]
  exact List.getElem?_concat_length

/-- There was room if there is room afterwards. -/
lemma room_of_append (h : b.append n = (v, b'))
    (hroom : b'.function.nodes.length < kInvalidIndex.toNat) :
    b.function.nodes.length < kInvalidIndex.toNat := by
  by_contra hfull
  rw [FunctionBuilder.append, if_pos (not_lt.mp hfull)] at h
  cases h
  exact hfull hroom

/-- A successful append leaves the atomic node, with its fields and access, at the returned value.
-/
lemma nodeAt_of_appendAtomic {opcode : AtomicOpcode} {byteOffset value auxiliary : Value}
    {access : AtomicAccessDescriptor} {site : Nat}
    (h : b.appendAtomic opcode byteOffset value auxiliary access site = (v, b')) (hv : v.valid) :
    ∃ n, b'.function.NodeAt v n ∧
      n = { opcode := .op (.atomic opcode), lhs := byteOffset, rhs := value
            immediate := BitVec.ofNat 64 site, auxiliary := auxiliary
            atomicAccess := BitVec.ofNat 32 b.function.atomicAccesses.length } ∧
      b'.function.atomicAccesses[n.atomicAccess.toNat]? = some access ∧
      b.function.nodes.length < kInvalidIndex.toNat ∧
      ∃ rest, b'.function.nodes = b.function.nodes ++ rest := by
  unfold FunctionBuilder.appendAtomic at h
  split_ifs at h with hfull
  · cases h
    exact absurd hv not_valid_invalid
  · rw [not_or, not_or, not_le, not_le] at hfull
    obtain ⟨hroom, hroomAccess, -⟩ := hfull
    cases h
    refine ⟨_, ?_, rfl, ?_, hroom, _, rfl⟩
    · unfold Function.NodeAt
      rw [Value.index_ofIndex hroom]
      exact List.getElem?_concat_length
    · have hmax : kInvalidIndex.toNat < 2 ^ 32 := kInvalidIndex.isLt
      have hindex : (BitVec.ofNat 32 b.function.atomicAccesses.length).toNat =
          b.function.atomicAccesses.length := by
        rw [BitVec.toNat_ofNat, Nat.mod_eq_of_lt (hroomAccess.trans hmax)]
      dsimp only
      rw [hindex]
      exact List.getElem?_concat_length

/-- The mask keeps the bits of a narrow cell. -/
lemma and_mask {width : Nat} (hwidth : width ∈ [1, 2, 4]) (x : Word) :
    x &&& ((1 <<< (width * 8)) - 1) = (x.setWidth (8 * width)).setWidth 64 := by
  have hmask : ((1 <<< (width * 8)) - 1 : Word).toNat = 2 ^ (8 * width) - 1 ∧ 8 * width ≤ 64 := by
    simp only [List.mem_cons, List.not_mem_nil, or_false] at hwidth
    rcases hwidth with rfl | rfl | rfl <;> decide
  apply BitVec.eq_of_toNat_eq
  rw [BitVec.toNat_and, hmask.1, Nat.and_two_pow_sub_one_eq_mod, BitVec.toNat_setWidth,
    BitVec.toNat_setWidth]
  have hlt : x.toNat % 2 ^ (8 * width) < 2 ^ (8 * width) := Nat.mod_lt _ (Nat.two_pow_pos _)
  exact (Nat.mod_eq_of_lt (hlt.trans_le (Nat.pow_le_pow_right (by decide) hmask.2))).symm

/-- The normalized value is the expected one, cut down to the cell. -/
lemma normalizeExpected_spec {expected normalized : Value} {width : Nat}
    (h : b.normalizeExpected expected width = (normalized, b')) (hwidth : width ∈ [1, 2, 4, 8])
    (hroom : b'.function.nodes.length < kInvalidIndex.toNat) {f : Function} {rest : List Node}
    (hnodes : f.nodes = b'.function.nodes ++ rest) {float : FloatUnit} {word : Value → Word}
    (hword : f.Computes float word) :
    word normalized = ((word expected).setWidth (8 * width)).setWidth 64 := by
  unfold FunctionBuilder.normalizeExpected at h
  split_ifs at h with hnarrow
  · have hmember : width ∈ [1, 2, 4] := by
      simp only [List.mem_cons, List.not_mem_nil, or_false] at hwidth ⊢
      omega
    rcases hmask : b.constant ((1 <<< (width * 8)) - 1) with ⟨mask, b₁⟩
    rw [hmask] at h
    have hroom₁ := room_of_append h hroom
    obtain ⟨hvalid₁, hnode₁, -⟩ := nodeAt_of_append hmask (room_of_append hmask hroom₁)
    obtain ⟨hvalid₂, hnode₂, hnodes₂⟩ := nodeAt_of_append h hroom₁
    have hconstant := (hword mask _ hvalid₁
      ((hnode₁.append hnodes₂).append hnodes)).1 rfl
    have hand := (hword normalized _ hvalid₂ (hnode₂.append hnodes)).2 .bitwiseAnd rfl
    rw [hand, evaluateBinary, hconstant]
    exact and_mask hmember _
  · have hwhole : width = 8 := by
      simp only [List.mem_cons, List.not_mem_nil, or_false] at hwidth
      omega
    cases h
    rw [hwhole]
    exact (BitVec.setWidth_eq _).symm.trans (congrArg (BitVec.setWidth 64) (BitVec.setWidth_eq _).symm)

/-- **The success flag.** It compares the observed value with the operand that the operation was
built with, and this operand is the expected value, cut down to the cell. -/
lemma atomicCompareExchange_spec {byteOffset expected desired observed flag : Value}
    {access : AtomicAccessDescriptor} {site : Nat}
    (h : b.atomicCompareExchange byteOffset expected desired access site = ((observed, flag), b'))
    (hflag : flag.valid) (hwidth : memoryWidthBytes access.memory.width ∈ [1, 2, 4, 8])
    {float : FloatUnit} {word : Value → Word} (hword : b'.function.Computes float word) :
    ∃ n, b'.function.NodeAt observed n ∧ n.opcode = .op (.atomic .compareExchange) ∧
      n.lhs = byteOffset ∧ n.auxiliary = desired ∧
      b'.function.atomicAccesses[n.atomicAccess.toNat]? = some access ∧
      word flag = wordOfBool (word observed = word n.rhs) ∧
      word n.rhs = ((word expected).setWidth
        (8 * memoryWidthBytes access.memory.width)).setWidth 64 := by
  unfold FunctionBuilder.atomicCompareExchange at h
  rcases hnormalized : b.normalizeExpected expected (memoryWidthBytes access.memory.width) with
    ⟨normalized, b₁⟩
  rw [hnormalized] at h
  rcases hobserved : b₁.atomicCompareExchangeObserved byteOffset normalized desired access site with
    ⟨value, b₂⟩
  simp only [hobserved] at h
  split_ifs at h with hvalid
  · rcases hequal : b₂.equal value normalized with ⟨answer, b₃⟩
    rw [hequal] at h
    cases h
    obtain ⟨n, hnode, hn, haccesses, hroom₁, rest, hrest⟩ := nodeAt_of_appendAtomic hobserved hvalid
    subst hn
    have hroom₂ : b₂.function.nodes.length < kInvalidIndex.toNat := by
      by_contra hfull
      unfold FunctionBuilder.equal FunctionBuilder.appendBinary FunctionBuilder.append at hequal
      rw [if_pos (not_lt.mp hfull)] at hequal
      cases hequal
      exact not_valid_invalid hflag
    obtain ⟨-, hnodeFlag, hnodes⟩ := nodeAt_of_append hequal hroom₂
    have htables : b₃.function.atomicAccesses = b₂.function.atomicAccesses := by
      unfold FunctionBuilder.equal FunctionBuilder.appendBinary at hequal
      rw [FunctionBuilder.append_eq hroom₂] at hequal
      cases hequal
      rfl
    refine ⟨_, hnode.append hnodes, rfl, rfl, rfl, ?_, ?_, ?_⟩
    · rw [htables]
      exact haccesses
    · exact (hword answer _ hflag hnodeFlag).2 .equal rfl
    · rw [hrest, List.append_assoc] at hnodes
      exact normalizeExpected_spec hnormalized hwidth hroom₁ hnodes hword
  · cases h
    exact absurd hflag not_valid_invalid

end built

end UniJit.Ir
