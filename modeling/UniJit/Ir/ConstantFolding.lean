import UniJit.Ir.FloorArithmetic
import UniJit.Ir.InterpreterAgreement

/-!
# Constant folding

The optimizer of straight-line functions and that of graphs evaluate operations on known constants.
Each has folders of its own, chains of comparisons that end in the operation that is left over.
`foldBinary`, `foldFloatBinary` and `foldUnary` are those of the first, and `foldControlBinary` and
`foldControlUnary` those of the second, in the order of the source; `foldNode` and
`foldControlNode` choose between them as the passes do.

A folded node has the value that both interpreters would have given it
(`executeNode_eq_fold`, `executeInstruction_eq_fold`).
-/

namespace UniJit.Ir

open UniJit.Runtime

namespace Function

/-- The folder's test for Float64 binary opcodes. -/
def isFloatBinary (opcode : Opcode) : Bool :=
  opcode = .op (.binary .floatAdd) || opcode = .op (.binary .floatSubtract) ||
  opcode = .op (.binary .floatMultiply) || opcode = .op (.binary .floatDivide) ||
  opcode = .op (.binary .floatLessThan) || opcode = .op (.binary .floatLessEqual) ||
  opcode = .op (.binary .floatEqual) || opcode = .op (.binary .floatNotEqual)

/-- The folder's test for binary opcodes. -/
def isBinary (opcode : Opcode) : Bool :=
  opcode = .op (.binary .add) || opcode = .op (.binary .subtract) ||
  opcode = .op (.binary .multiply) || opcode = .op (.binary .bitwiseAnd) ||
  opcode = .op (.binary .bitwiseOr) || opcode = .op (.binary .bitwiseXor) ||
  opcode = .op (.binary .shiftLeft) || opcode = .op (.binary .floorDivide) ||
  opcode = .op (.binary .floorModulo) || opcode = .op (.binary .lessThan) ||
  opcode = .op (.binary .lessEqual) || opcode = .op (.binary .equal) ||
  opcode = .op (.binary .notEqual) ||
  opcode = .op (.binary .floatAdd) || opcode = .op (.binary .floatSubtract) ||
  opcode = .op (.binary .floatMultiply) || opcode = .op (.binary .floatDivide) ||
  opcode = .op (.binary .floatLessThan) || opcode = .op (.binary .floatLessEqual) ||
  opcode = .op (.binary .floatEqual) || opcode = .op (.binary .floatNotEqual)

/-- The folder's test for unary opcodes. -/
def isUnary (opcode : Opcode) : Bool :=
  opcode = .op (.unary .negate) || opcode = .op (.unary .bitwiseNot) ||
  opcode = .op (.unary .byteSwap) || opcode = .op (.unary .floatNegate)

/-- The folder's chain of tests over integer binary opcodes. -/
def foldBinary (opcode : Opcode) (lhs rhs : Word) : Word :=
  if opcode = .op (.binary .add) then lhs + rhs
  else if opcode = .op (.binary .subtract) then lhs - rhs
  else if opcode = .op (.binary .multiply) then lhs * rhs
  else if opcode = .op (.binary .bitwiseAnd) then lhs &&& rhs
  else if opcode = .op (.binary .bitwiseOr) then lhs ||| rhs
  else if opcode = .op (.binary .shiftLeft) then
    if rhs.toInt < 0 then
      let magnitude := 0 - rhs
      if 64 ≤ magnitude.toNat then 0 else lhs >>> magnitude.toNat
    else if 64 ≤ rhs.toNat then 0 else lhs <<< rhs.toNat
  else if opcode = .op (.binary .floorDivide) then floorDivideWord lhs rhs
  else if opcode = .op (.binary .floorModulo) then floorModuloWord lhs rhs
  else if opcode = .op (.binary .lessThan) then if lhs.toInt < rhs.toInt then 1 else 0
  else if opcode = .op (.binary .lessEqual) then if lhs.toInt ≤ rhs.toInt then 1 else 0
  else if opcode = .op (.binary .equal) then if lhs = rhs then 1 else 0
  else if opcode = .op (.binary .notEqual) then if lhs ≠ rhs then 1 else 0
  else lhs ^^^ rhs

/-- The folder's chain of tests over Float64 binary opcodes. -/
def foldFloatBinary (float : FloatUnit) (opcode : Opcode) (lhs rhs : Word) : Word :=
  if opcode = .op (.binary .floatAdd) then float.add lhs rhs
  else if opcode = .op (.binary .floatSubtract) then float.subtract lhs rhs
  else if opcode = .op (.binary .floatMultiply) then float.multiply lhs rhs
  else if opcode = .op (.binary .floatDivide) then float.divide lhs rhs
  else if opcode = .op (.binary .floatLessThan) then if float.lessThan lhs rhs then 1 else 0
  else if opcode = .op (.binary .floatLessEqual) then if float.lessEqual lhs rhs then 1 else 0
  else if opcode = .op (.binary .floatEqual) then if float.equal lhs rhs then 1 else 0
  else if ¬ float.equal lhs rhs then 1 else 0

/-- The folder's chain of tests over unary opcodes. -/
def foldUnary (opcode : Opcode) (value immediate : Word) : Word :=
  if opcode = .op (.unary .negate) then 0 - value
  else if opcode = .op (.unary .bitwiseNot) then ~~~value
  else if opcode = .op (.unary .byteSwap) then
    byteSwapWord value ((byteSwapWidthOf immediate).getD .k8)
  else value ^^^ (1 <<< 63)

/-- The constant that the pass puts in the place of a node whose operands are constants. -/
def foldNode (float : FloatUnit) (n : Node) (lhs rhs : Word) : Word :=
  if isUnary n.opcode then foldUnary n.opcode lhs n.immediate
  else if isFloatBinary n.opcode then foldFloatBinary float n.opcode lhs rhs
  else foldBinary n.opcode lhs rhs

end Function

namespace ControlFlowFunction

/-- The control-flow folder's switch that accepts the binary opcodes. -/
def isControlBinary (opcode : ControlOpcode) : Bool :=
  match opcode with
  | .op (.binary .add) | .op (.binary .subtract) | .op (.binary .multiply) => true
  | .op (.binary .bitwiseAnd) | .op (.binary .bitwiseOr) | .op (.binary .bitwiseXor) => true
  | .op (.binary .shiftLeft) | .op (.binary .floorDivide) | .op (.binary .floorModulo) => true
  | .op (.binary .floatAdd) | .op (.binary .floatSubtract) => true
  | .op (.binary .floatMultiply) | .op (.binary .floatDivide) => true
  | .op (.binary .floatLessThan) | .op (.binary .floatLessEqual) => true
  | .op (.binary .floatEqual) | .op (.binary .floatNotEqual) => true
  | .op (.binary .lessThan) | .op (.binary .lessEqual) => true
  | .op (.binary .equal) | .op (.binary .notEqual) => true
  | _ => false

/-- The control-flow folder's test for unary opcodes. -/
def isControlUnary (opcode : ControlOpcode) : Bool :=
  opcode = .op (.unary .negate) || opcode = .op (.unary .bitwiseNot) ||
  opcode = .op (.unary .byteSwap) || opcode = .op (.unary .floatNegate)

/-- The control-flow folder's test for Float64 binary opcodes. -/
def isControlFloatBinary (opcode : ControlOpcode) : Bool :=
  opcode = .op (.binary .floatAdd) || opcode = .op (.binary .floatSubtract) ||
  opcode = .op (.binary .floatMultiply) || opcode = .op (.binary .floatDivide) ||
  opcode = .op (.binary .floatLessThan) || opcode = .op (.binary .floatLessEqual) ||
  opcode = .op (.binary .floatEqual) || opcode = .op (.binary .floatNotEqual)

/-- The control-flow folder's chain of tests over unary opcodes. -/
def foldControlUnary (opcode : ControlOpcode) (value immediate : Word) : Word :=
  if opcode = .op (.unary .negate) then 0 - value
  else if opcode = .op (.unary .bitwiseNot) then ~~~value
  else if opcode = .op (.unary .byteSwap) then
    byteSwapWord value ((byteSwapWidthOf immediate).getD .k8)
  else value ^^^ (1 <<< 63)

/-- The control-flow folder's chain of tests over binary opcodes. -/
def foldControlBinary (float : FloatUnit) (opcode : ControlOpcode) (lhs rhs : Word) : Word :=
  if isControlFloatBinary opcode then
    if opcode = .op (.binary .floatAdd) then float.add lhs rhs
    else if opcode = .op (.binary .floatSubtract) then float.subtract lhs rhs
    else if opcode = .op (.binary .floatMultiply) then float.multiply lhs rhs
    else if opcode = .op (.binary .floatDivide) then float.divide lhs rhs
    else if opcode = .op (.binary .floatLessThan) then if float.lessThan lhs rhs then 1 else 0
    else if opcode = .op (.binary .floatLessEqual) then if float.lessEqual lhs rhs then 1 else 0
    else if opcode = .op (.binary .floatEqual) then if float.equal lhs rhs then 1 else 0
    else if ¬ float.equal lhs rhs then 1 else 0
  else if opcode = .op (.binary .add) then lhs + rhs
  else if opcode = .op (.binary .subtract) then lhs - rhs
  else if opcode = .op (.binary .multiply) then lhs * rhs
  else if opcode = .op (.binary .bitwiseAnd) then lhs &&& rhs
  else if opcode = .op (.binary .bitwiseOr) then lhs ||| rhs
  else if opcode = .op (.binary .bitwiseXor) then lhs ^^^ rhs
  else if opcode = .op (.binary .shiftLeft) then
    if rhs.toInt < 0 then
      let magnitude := 0 - rhs
      if 64 ≤ magnitude.toNat then 0 else lhs >>> magnitude.toNat
    else if 64 ≤ rhs.toNat then 0 else lhs <<< rhs.toNat
  else if opcode = .op (.binary .floorDivide) then floorDivideWord lhs rhs
  else if opcode = .op (.binary .floorModulo) then floorModuloWord lhs rhs
  else if opcode = .op (.binary .lessThan) then if lhs.toInt < rhs.toInt then 1 else 0
  else if opcode = .op (.binary .lessEqual) then if lhs.toInt ≤ rhs.toInt then 1 else 0
  else if opcode = .op (.binary .equal) then if lhs = rhs then 1 else 0
  else if lhs ≠ rhs then 1 else 0

/-- The constant that the pass puts in the place of a node whose operands are constants. -/
def foldControlNode (float : FloatUnit) (n : ControlNode) (lhs rhs : Word) : Word :=
  if isControlUnary n.opcode then foldControlUnary n.opcode lhs n.immediate
  else foldControlBinary float n.opcode lhs rhs

end ControlFlowFunction

/-! ## The folded operations -/

/-- The unary test accepts the unary operations and no others. -/
lemma Function.isUnary_iff {opcode : Opcode} :
    Function.isUnary opcode = true ↔ ∃ o, opcode = .op (.unary o) := by
  constructor
  · intro h
    simp only [isUnary, Bool.or_eq_true, decide_eq_true_eq] at h
    rcases h with ((h | h) | h) | h
    · exact ⟨_, h⟩
    · exact ⟨_, h⟩
    · exact ⟨_, h⟩
    · exact ⟨_, h⟩
  · rintro ⟨o, rfl⟩
    cases o <;> rfl

/-- The binary test accepts the binary operations and no others. -/
lemma Function.isBinary_iff {opcode : Opcode} :
    Function.isBinary opcode = true ↔ ∃ o, opcode = .op (.binary o) := by
  constructor
  · intro h
    cases opcode with
    | parameter => simp [isBinary] at h
    | op o =>
        cases o with
        | binary o => exact ⟨o, rfl⟩
        | _ => simp [isBinary] at h
  · rintro ⟨o, rfl⟩
    cases o <;> rfl

/-- The control-flow unary test accepts the unary operations and no others. -/
lemma ControlFlowFunction.isControlUnary_iff {opcode : ControlOpcode} :
    ControlFlowFunction.isControlUnary opcode = true ↔ ∃ o, opcode = .op (.unary o) := by
  constructor
  · intro h
    simp only [isControlUnary, Bool.or_eq_true, decide_eq_true_eq] at h
    rcases h with ((h | h) | h) | h
    · exact ⟨_, h⟩
    · exact ⟨_, h⟩
    · exact ⟨_, h⟩
    · exact ⟨_, h⟩
  · rintro ⟨o, rfl⟩
    cases o <;> rfl

/-- The control-flow binary test accepts the binary operations and no others. -/
lemma ControlFlowFunction.isControlBinary_iff {opcode : ControlOpcode} :
    ControlFlowFunction.isControlBinary opcode = true ↔ ∃ o, opcode = .op (.binary o) := by
  constructor
  · intro h
    unfold isControlBinary at h
    split at h <;> simp_all
  · rintro ⟨o, rfl⟩
    cases o <;> rfl

section

variable {host : Host} {s : Values}

/-- A folded node has the value that the straight-line interpreter gives it. -/
lemma Function.executeNode_eq_fold {n : Node}
    (h : isUnary n.opcode = true ∨ isBinary n.opcode = true ∧ n.rhs.valid)
    (f : Function) (args : List Word) (index : Nat) :
    f.executeNode host args index n s = pure (s.setWord index
      (foldNode host.float n (s.word n.lhs) (s.word n.rhs))) := by
  rcases h with hunary | ⟨hbinary, hrhs⟩
  · obtain ⟨o, ho⟩ := isUnary_iff.mp hunary
    cases o <;> simp [executeNode, ho, foldNode, isUnary, foldUnary, evaluateBinary]
  · obtain ⟨o, ho⟩ := isBinary_iff.mp hbinary
    cases o <;> simp [executeNode, ho, hrhs, foldNode, isUnary, isFloatBinary, foldBinary,
      foldFloatBinary, evaluateBinary, shiftLeft]

/-- A folded node has the value that the interpreter of graphs gives it. -/
lemma ControlFlowFunction.executeInstruction_eq_fold {f : ControlFlowFunction} {v : Value}
    {n : ControlNode} (hn : f.nodes[v.index]? = some n)
    (h : isControlUnary n.opcode = true ∨ isControlBinary n.opcode = true ∧ n.rhs.valid) :
    f.executeInstruction host v s = pure (s.setWord v.index
      (foldControlNode host.float n (s.word n.lhs) (s.word n.rhs))) := by
  have hget : f.nodes.getD v.index { opcode := .parameter } = n := by
    rw [List.getD_eq_getElem?_getD, hn]
    rfl
  unfold executeInstruction
  simp only [hget]
  rcases h with hunary | ⟨hbinary, hrhs⟩
  · obtain ⟨o, ho⟩ := isControlUnary_iff.mp hunary
    have hatomic : ∀ o, (ControlOpcode.op (.unary o)).isAtomicAccess = false := fun _ => rfl
    cases o <;> simp [ho, hatomic, foldControlNode, isControlUnary, foldControlUnary, evaluateNode]
  · obtain ⟨o, ho⟩ := isControlBinary_iff.mp hbinary
    have hatomic : ∀ o, (ControlOpcode.op (.binary o)).isAtomicAccess = false := fun _ => rfl
    cases o <;> simp [ho, hrhs, hatomic, foldControlNode, isControlUnary, isControlFloatBinary,
      foldControlBinary, evaluateNode]

/-- The two passes fold an operation alike. -/
lemma ControlFlowFunction.foldControlNode_toControl {n : Node}
    (h : Function.isUnary n.opcode = true ∨ Function.isBinary n.opcode = true)
    (float : FloatUnit) (lhs rhs : Word) :
    foldControlNode float n.toControl lhs rhs = Function.foldNode float n lhs rhs := by
  rcases h with hunary | hbinary
  · obtain ⟨o, ho⟩ := Function.isUnary_iff.mp hunary
    cases o <;> simp [foldControlNode, Node.toControl, ho, isControlUnary, foldControlUnary,
      Function.foldNode, Function.isUnary, Function.foldUnary]
  · obtain ⟨o, ho⟩ := Function.isBinary_iff.mp hbinary
    cases o <;> simp [foldControlNode, Node.toControl, ho, isControlUnary, foldControlBinary,
      isControlFloatBinary, Function.foldNode, Function.isUnary, Function.isFloatBinary,
      Function.foldBinary, Function.foldFloatBinary]

end

/-! ## The laws -/

/-- What floor division promises of two words. -/
structure FloorLaws (a b : Word) : Prop where
  divide_defined : floorDivideChecked a b = some (floorDivideWord a b)
  modulo_defined : floorModuloChecked a b = some (floorModuloWord a b)
  by_zero : b = 0 → floorDivideWord a b = 0 ∧ floorModuloWord a b = 0
  quotient : b ≠ 0 → floorDivideWord a b = BitVec.ofInt 64 ⌊(a.toInt : ℚ) / b.toInt⌋
  remainder : floorModuloWord a b = 0 ∨
    (floorModuloWord a b).toInt.sign = b.toInt.sign ∧ |(floorModuloWord a b).toInt| < |b.toInt|
  division : a = floorDivideWord a b * b + floorModuloWord a b ↔ b ≠ 0 ∨ a = 0

/-- Every pair of words satisfies the laws of floor division and modulo. -/
lemma floorLaws (a b : Word) : FloorLaws a b where
  divide_defined := floorDivideChecked_eq a b
  modulo_defined := floorModuloChecked_eq a b
  by_zero h := by
    subst h
    exact ⟨rfl, rfl⟩
  quotient h := floorDivideWord_eq_floor h
  remainder := by
    by_cases h : b = 0
    · left
      rw [floorModuloWord, if_pos (.inl h)]
    · rcases floorModuloWord_range a h with hzero | ⟨hpositive, hlt⟩ | ⟨hlt, hnegative⟩
      · exact .inl (BitVec.eq_of_toInt_eq hzero)
      · refine .inr ⟨?_, ?_⟩
        · rw [Int.sign_eq_one_of_pos hpositive, Int.sign_eq_one_of_pos (hpositive.trans hlt)]
        · rwa [abs_of_pos hpositive, abs_of_pos (hpositive.trans hlt)]
      · refine .inr ⟨?_, ?_⟩
        · rw [Int.sign_eq_neg_one_of_neg hnegative,
            Int.sign_eq_neg_one_of_neg (hlt.trans hnegative)]
        · rw [abs_of_neg hnegative, abs_of_neg (hlt.trans hnegative)]
          exact neg_lt_neg hlt
  division := by
    by_cases h : b = 0
    · subst h
      simp [floorDivideWord, floorModuloWord]
    · exact ⟨fun _ => .inl h, fun _ => (floorDivideWord_mul_add h).symm⟩

/-- Floor division obeys its laws, and constant folding agrees with both interpreters. -/
theorem floor_arithmetic :
    (∀ a b : Word, FloorLaws a b) ∧
      (∀ (host : Host) (f : Function) (args : List Word) (index : Nat) (n : Node) (s : Values),
        Function.isUnary n.opcode = true ∨ Function.isBinary n.opcode = true ∧ n.rhs.valid →
        f.executeNode host args index n s = pure (s.setWord index
          (Function.foldNode host.float n (s.word n.lhs) (s.word n.rhs)))) ∧
      (∀ (host : Host) (f : ControlFlowFunction) (v : Value) (n : ControlNode) (s : Values),
        f.nodes[v.index]? = some n →
        ControlFlowFunction.isControlUnary n.opcode = true ∨
          ControlFlowFunction.isControlBinary n.opcode = true ∧ n.rhs.valid →
        f.executeInstruction host v s = pure (s.setWord v.index
          (ControlFlowFunction.foldControlNode host.float n (s.word n.lhs) (s.word n.rhs)))) ∧
      (∀ (float : FloatUnit) (n : Node) (lhs rhs : Word),
        Function.isUnary n.opcode = true ∨ Function.isBinary n.opcode = true →
        ControlFlowFunction.foldControlNode float n.toControl lhs rhs =
          Function.foldNode float n lhs rhs) := by
  refine ⟨floorLaws, ?_, ?_, ?_⟩
  · intro host f args index n s h
    exact Function.executeNode_eq_fold h f args index
  · intro host f v n s hn h
    exact ControlFlowFunction.executeInstruction_eq_fold hn h
  · intro float n lhs rhs h
    exact ControlFlowFunction.foldControlNode_toControl h float lhs rhs

/-- Division by zero is defined, but its results do not make up the dividend. -/
theorem ne_floorDivideWord_zero_mul_add :
    (1 : Word) ≠ floorDivideWord 1 0 * 0 + floorModuloWord 1 0 := by
  decide

end UniJit.Ir
