import UniJit.Ir.NodeRules

/-!
# The operands an operation reads

`operands` lists, for every operation, the values that executing it reads, in the order in which
the interpreters read them. Liveness, register allocation and the optimizer's operand maps are
all about these values.
-/

namespace UniJit.Ir

variable {Op : Type}

/-- The values that a node of operation `o` reads. -/
def operands (t : SideTables) (n : NodeOf Op) : Operation → List Value
  | .binary _ => [n.lhs, n.rhs]
  | .unary _ => [n.lhs]
  | .guardWordNonzero | .guardFloatNonzero => [n.lhs]
  | .call | .fastCall => (t.callArguments.drop n.argumentBegin.toNat).take n.argumentCount.toNat
  | .memory .storeWord | .memory .storeFloat | .memory .storeVector => [n.lhs, n.rhs]
  | .memory _ => [n.lhs]
  | .atomic .load => [n.lhs]
  | .atomic .compareExchange => [n.lhs, n.rhs, n.auxiliary]
  | .atomic _ => [n.lhs, n.rhs]
  | .storeFrame | .storeObject => [n.lhs]
  | .vectorInsertLane | .vectorBinary | .vectorCompare => [n.lhs, n.rhs]
  | .vectorSplat | .vectorExtractLane | .vectorUnary | .vectorLaneSignMask | .vectorShuffle
  | .vectorWiden => [n.lhs]
  | .vectorSelect =>
      [n.lhs, n.rhs, t.vectorSelectArguments.getD n.immediate.toNat .invalid]
  | .constant | .safepoint | .atomicFence | .loadFrame | .loadObject | .loadPatchCell
  | .vectorConstant => []

end UniJit.Ir
