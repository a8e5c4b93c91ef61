import UniJit.Ir.Builder
import UniJit.Ir.ControlFlowFacts

/-!
# Building control-flow graphs

`ControlFlowBuilder` appends nodes to the block that is its insertion point, creates blocks with
their parameters, and ends blocks with terminators. A block that has its terminator accepts no
further node. Edges are checked when they are made: the number of arguments and their types must
be those of the target's parameters.

Both builders offer the same operations on scalars. `ScalarBuilder` is what they have in common: a
node of an operation on scalars is appended, unless the builder refuses it, and the answer is then
the invalid handle.
-/

namespace UniJit.Ir

open UniJit.Lib

/-! ## Operations on scalars -/

/-- A builder that can append a node of a scalar type, and that can record what is returned. -/
class ScalarBuilder (B : Type) where
  append : B → Operation → ValueType → Value → Value → Word → Value × B
  setReturn : B → Value → Except Status B

namespace ScalarBuilder

variable {B : Type} [ScalarBuilder B] (b : B)

/-- Appends a word constant. -/
def constant (value : Word) : Value × B := append b .constant .word .invalid .invalid value

/-- Appends a Float64 constant given by its bits. -/
def float64Constant (bits : Word) : Value × B :=
  append b .constant .float64 .invalid .invalid bits

/-- Appends a binary operation of the type its opcode gives. -/
def binary (opcode : BinaryOpcode) (lhs rhs : Value) : Value × B :=
  append b (.binary opcode) (binaryResultType opcode) lhs rhs 0

/-- Appends a unary operation of the type its opcode gives. -/
def unary (opcode : UnaryOpcode) (value : Value) : Value × B :=
  append b (.unary opcode) (unaryOperandType opcode) value .invalid 0

/-- A guard, which leaves the function at a site if its operand is zero. -/
def guard (o : Operation) (value : Value) (site : Nat) : Value × B :=
  if maximumWord < site then (.invalid, b)
  else append b o .word value .invalid (BitVec.ofNat 64 site)

/-- Appends a guard that exits at `site` on a zero word. -/
def guardWordNonzero (value : Value) (site : Nat) : Value × B := guard b .guardWordNonzero value site

/-- Appends a guard that exits at `site` on a zero Float64. -/
def guardFloat64Nonzero (value : Value) (site : Nat) : Value × B :=
  guard b .guardFloatNonzero value site

end ScalarBuilder

/-- The straight-line builder appends scalar operations at its end. -/
instance : ScalarBuilder FunctionBuilder where
  append b o type lhs rhs immediate :=
    b.append { opcode := .op o, lhs := lhs, rhs := rhs, immediate := immediate, type := type }
  setReturn := FunctionBuilder.setReturn

-- the operations of the straight-line builder are those of `ScalarBuilder`
example (b : FunctionBuilder) (opcode : BinaryOpcode) (lhs rhs : Value) :
    b.appendBinary opcode lhs rhs = ScalarBuilder.binary b opcode lhs rhs := by
  cases opcode <;> rfl

/-! ## The operations of the builder -/

/-- The graph under construction and the block that receives new nodes. -/
structure ControlFlowBuilder where
  function : ControlFlowFunction
  insertionBlock : Block
  deriving DecidableEq, Repr

namespace ControlFlowBuilder

variable (b : ControlFlowBuilder)

/-- The values that a run of parameter nodes is given, and the nodes themselves; those beyond the
index range are refused. -/
def parameterValues (first count : Nat) : List Value :=
  (List.range count).map fun index =>
    if first + index < kInvalidIndex.toNat then .ofIndex (first + index) else .invalid

/-- The parameter nodes of a block, cut at the node limit. -/
def parameterNodes (opcode : ControlOpcode) (first : Nat) (types : List ValueType) :
    List ControlNode :=
  (types.take (kInvalidIndex.toNat - first)).mapIdx fun index type =>
    { opcode := opcode, immediate := BitVec.ofNat 64 index, type := type }

/-- The constructor: the parameters of the function are those of its entry block. -/
def create (parameterTypes : List ValueType) (memoryRegionCount : Nat := 0) : ControlFlowBuilder :=
  let parameters := parameterValues 0 parameterTypes.length
  let nodes := parameterNodes .parameter 0 parameterTypes
  { function :=
      { parameterTypes := parameterTypes
        memoryRegionCount := memoryRegionCount
        entryBlock := .ofIndex 0
        nodes := nodes
        blocks := [{ parameters := parameters, instructions := parameters.take nodes.length }] }
    insertionBlock := .ofIndex 0 }

/-- The block at the insertion point. -/
def current : BasicBlock := b.function.blocks.getD b.insertionBlock.index {}

/-- A function parameter, that is, a parameter of the entry block. -/
def parameter (index : Nat) : Value :=
  (b.function.blocks.getD b.function.entryBlock.index {}).parameters.getD index .invalid

/-- A parameter of a block, invalid when there is none. -/
def blockParameter (block : Block) (index : Nat) : Value :=
  if b.function.validBlock block then
    (b.function.blocks.getD block.index {}).parameters.getD index .invalid
  else .invalid

/-- Adds a block with parameters of the given types, refused at the block limit. -/
def createBlock (parameterTypes : List ValueType) : Block × ControlFlowBuilder :=
  if kInvalidIndex.toNat ≤ b.function.blocks.length then (.invalid, b)
  else
    let first := b.function.nodes.length
    let parameters := parameterValues first parameterTypes.length
    let nodes := parameterNodes .blockParameter first parameterTypes
    (.ofIndex b.function.blocks.length,
      { b with function := { b.function with
          nodes := b.function.nodes ++ nodes
          blocks := b.function.blocks ++
            [{ parameters := parameters, instructions := parameters.take nodes.length }] } })

/-- Moves the insertion point to an existing block. -/
def setInsertionBlock (block : Block) : Except Status ControlFlowBuilder := do
  require (b.function.validBlock block)
    ⟨.invalidArgument, "insertion block does not exist", 0⟩
  pure { b with insertionBlock := block }

/-- The insertion point accepts a further node. -/
def accepts : Prop :=
  b.function.validBlock b.insertionBlock ∧ b.current.terminator = .none ∧
    b.function.nodes.length < kInvalidIndex.toNat

/-- Whether the builder accepts a node can be computed. -/
instance : Decidable b.accepts := by unfold accepts; infer_instance

/-- A node at the insertion point, with the call arguments it refers to. -/
def appendNode (n : ControlNode) (arguments : List Value := []) : Value × ControlFlowBuilder :=
  if b.accepts then
    let value := Value.ofIndex b.function.nodes.length
    (value,
      { b with function := { b.function with
          callArguments := b.function.callArguments ++ arguments
          nodes := b.function.nodes ++ [n]
          blocks := b.function.blocks.set b.insertionBlock.index
            { b.current with instructions := b.current.instructions ++ [value] } } })
  else (.invalid, b)

/-- Appends a helper call whose arguments still fit the side table. -/
def call (helper : Word) (arguments : List Value) : Value × ControlFlowBuilder :=
  if kInvalidIndex.toNat < arguments.length ∨
      kInvalidIndex.toNat - arguments.length < b.function.callArguments.length then (.invalid, b)
  else b.appendNode
    { opcode := .op .call
      immediate := helper
      argumentBegin := BitVec.ofNat 32 b.function.callArguments.length
      argumentCount := BitVec.ofNat 32 arguments.length } arguments

/-- Appends a poll that may exit at `site`, when the site fits a word. -/
def safepoint (site : Nat) : Value × ControlFlowBuilder :=
  if maximumWord < site then (.invalid, b)
  else b.appendNode { opcode := .op .safepoint, immediate := BitVec.ofNat 64 site }

/-- The declared type of a handle. -/
def typeOf (v : Value) : Option ValueType := b.function.nodes[v.index]?.map (·.type)

/-- Checks an edge: a target other than the entry block, and arguments that match its parameters. -/
def validateEdge (target : Block) (arguments : List Value) : Except Status Unit := do
  require (b.function.validBlock target ∧ target ≠ b.function.entryBlock)
    ⟨.invalidArgument, "edge target is invalid", 0⟩
  let parameters := (b.function.blocks.getD target.index {}).parameters
  require (arguments.length = parameters.length)
    ⟨.invalidArgument, "edge argument count does not match target block", 0⟩
  require (∀ pair ∈ arguments.zip parameters,
      b.function.validValue pair.1 ∧ b.typeOf pair.1 = b.typeOf pair.2)
    ⟨.invalidArgument, "edge argument type does not match target block", 0⟩

/-- Ends the current block, once. -/
def setTerminator (terminator : ControlTerminator) : Except Status ControlFlowBuilder := do
  require (b.function.validBlock b.insertionBlock)
    ⟨.invalidArgument, "insertion block does not exist", 0⟩
  require (b.current.terminator = .none)
    ⟨.invalidArgument, "basic block is already terminated", 0⟩
  pure { b with function := { b.function with
    blocks := b.function.blocks.set b.insertionBlock.index
      { b.current with terminator := terminator } } }

/-- Ends the current block with a return of an existing scalar. -/
def setReturn (value : Value) : Except Status ControlFlowBuilder := do
  require (b.function.validValue value) ⟨.invalidArgument, "return value does not exist", 0⟩
  require (isScalarValueType (b.function.valueType value))
    ⟨.invalidArgument, "the scalar control-flow ABI cannot return a vector value", 0⟩
  b.setTerminator (.ret value)

/-- Ends the current block with a jump over a valid edge. -/
def jump (target : Block) (arguments : List Value) : Except Status ControlFlowBuilder := do
  b.validateEdge target arguments
  b.setTerminator (.jump ⟨target, arguments⟩)

/-- Ends the current block with a branch over two valid edges. -/
def branch (condition : Value) (trueTarget : Block) (trueArguments : List Value)
    (falseTarget : Block) (falseArguments : List Value) : Except Status ControlFlowBuilder := do
  require (b.function.validValue condition)
    ⟨.invalidArgument, "branch condition does not exist", 0⟩
  b.validateEdge trueTarget trueArguments
  b.validateEdge falseTarget falseArguments
  b.setTerminator (.branch condition ⟨trueTarget, trueArguments⟩ ⟨falseTarget, falseArguments⟩)

/-- The control-flow builder appends scalar operations to its current block. -/
instance : ScalarBuilder ControlFlowBuilder where
  append b o type lhs rhs immediate :=
    b.appendNode { opcode := .op o, lhs := lhs, rhs := rhs, immediate := immediate, type := type }
  setReturn := setReturn

/-- Hands out the graph as it stands. -/
def build : ControlFlowFunction := b.function

end ControlFlowBuilder

end UniJit.Ir
