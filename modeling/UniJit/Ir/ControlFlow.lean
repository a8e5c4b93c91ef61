import UniJit.Ir.Function

/-!
# Control-flow graphs

The data model of a `ControlFlowFunction`: nodes as in a straight-line function, and basic blocks
that list, by value handle, their parameters followed by their instructions. Edges pass arguments
to the parameters of their target.

The source's terminator is a record of an opcode, a value and two edges. The builder and the
package decoder, the only code that creates one, leave the fields an opcode does not use at their
defaults; `ControlTerminator` has one constructor per opcode, and `value`, `trueEdge` and
`falseEdge` read the record's fields back.
-/

namespace UniJit.Ir

/-- A handle of a basic block. -/
structure Block where
  id : BitVec 32 := kInvalidIndex
  deriving DecidableEq, Repr

namespace Block

/-- The block handle that names no block. -/
def invalid : Block := {}

/-- A handle other than the reserved one. -/
abbrev valid (b : Block) : Prop := b.id ≠ kInvalidIndex

/-- The position of the block in the graph. -/
abbrev index (b : Block) : Nat := b.id.toNat

/-- The handle of the block at a position. -/
def ofIndex (n : Nat) : Block := ⟨BitVec.ofNat 32 n⟩

end Block

/-- The opcode of a node of a control-flow graph. -/
inductive ControlOpcode
  | parameter
  | blockParameter
  | op (o : Operation)
  deriving DecidableEq, Repr

/-- The declaration order of the control-flow opcodes; the position is the byte value. -/
def ControlOpcode.order : List ControlOpcode :=
  .parameter :: .blockParameter :: List.map ControlOpcode.op
    [.constant,
     .binary .add, .binary .subtract, .binary .multiply,
     .binary .bitwiseAnd, .binary .bitwiseOr, .binary .bitwiseXor, .binary .shiftLeft,
     .binary .floorDivide, .binary .floorModulo,
     .unary .negate, .unary .bitwiseNot, .unary .byteSwap,
     .binary .floatAdd, .binary .floatSubtract, .unary .floatNegate,
     .binary .floatMultiply, .binary .floatDivide,
     .binary .floatLessThan, .binary .floatLessEqual, .binary .floatEqual,
     .binary .floatNotEqual,
     .binary .lessThan, .binary .lessEqual, .binary .equal, .binary .notEqual,
     .call, .fastCall, .guardWordNonzero, .guardFloatNonzero, .safepoint,
     .memory .loadWord, .memory .storeWord, .memory .loadFloat, .memory .storeFloat,
     .memory .loadVector, .memory .storeVector,
     .atomic .load, .atomic .store, .atomic .exchange, .atomic .compareExchange,
     .atomic .fetchAdd, .atomic .fetchAnd, .atomic .fetchOr, .atomic .fetchXor, .atomicFence,
     .loadFrame, .storeFrame, .loadObject, .storeObject, .loadPatchCell,
     .vectorConstant, .vectorSplat, .vectorExtractLane, .vectorInsertLane,
     .vectorUnary, .vectorBinary, .vectorCompare, .vectorSelect,
     .vectorLaneSignMask, .vectorShuffle, .vectorWiden]

-- the last byte value of the opcodes of a graph
example : enumCode ControlOpcode.order (.op .vectorWiden) = 63 := by decide

/-- A node of a control-flow graph. -/
abbrev ControlNode := NodeOf ControlOpcode

/-- A control edge: its target and the arguments for the target's parameters. -/
structure ControlEdge where
  target : Block := .invalid
  arguments : List Value := []
  deriving DecidableEq, Repr

/-- How a basic block ends. -/
inductive ControlTerminator
  | none
  | ret (value : Value)
  | jump (edge : ControlEdge)
  | branch (condition : Value) (trueEdge falseEdge : ControlEdge)
  deriving DecidableEq, Repr

namespace ControlTerminator

/-- The value a return or a branch reads. -/
def value : ControlTerminator → Value
  | .ret v => v
  | .branch c _ _ => c
  | _ => .invalid

/-- The edge of a jump, or the one a branch takes on a nonzero condition. -/
def trueEdge : ControlTerminator → ControlEdge
  | .jump e => e
  | .branch _ e _ => e
  | _ => {}

/-- The edge a branch takes on zero. -/
def falseEdge : ControlTerminator → ControlEdge
  | .branch _ _ e => e
  | _ => {}

/-- The edges along which control can leave, in the order the source visits them. -/
def edges : ControlTerminator → List ControlEdge
  | .jump e => [e]
  | .branch _ t f => [t, f]
  | _ => []

end ControlTerminator

/-- A basic block. Its parameters are a leading part of its instructions. -/
structure BasicBlock where
  parameters : List Value := []
  instructions : List Value := []
  terminator : ControlTerminator := .none
  deriving DecidableEq, Repr

/-- A function as a control-flow graph. -/
structure ControlFlowFunction extends SideTables where
  parameterTypes : List ValueType := []
  entryBlock : Block := .invalid
  nodes : List ControlNode := []
  blocks : List BasicBlock := []
  deriving DecidableEq, Repr

namespace ControlFlowFunction

/-- The number of parameters. -/
def parameterCount (f : ControlFlowFunction) : Nat := f.parameterTypes.length

/-- The type of a parameter, a word past the declared ones. -/
def parameterType (f : ControlFlowFunction) (index : Nat) : ValueType :=
  f.parameterTypes.getD index .word

/-- A handle denotes a node of the function. -/
abbrev validValue (f : ControlFlowFunction) (v : Value) : Prop :=
  v.valid ∧ v.index < f.nodes.length

/-- A handle denotes a block of the function. -/
abbrev validBlock (f : ControlFlowFunction) (b : Block) : Prop :=
  b.valid ∧ b.index < f.blocks.length

/-- The type of the node a value names, a word when there is none. -/
def valueType (f : ControlFlowFunction) (v : Value) : ValueType :=
  if v.valid then (f.nodes[v.index]?.map (·.type)).getD .word else .word

end ControlFlowFunction

end UniJit.Ir
