import UniJit.Ir.Interpreter
import UniJit.Ir.ControlFlowFacts

/-!
# The control-flow interpreter

`ControlFlowFunction.evaluate` checks what the straight-line interpreter checks, and then executes
blocks from the entry on: the instructions after the block's parameters, then the terminator. An
edge reads all of its arguments before it assigns the parameters of its target. The number of
block executions is bounded by a budget.
-/

namespace UniJit.Ir.ControlFlowFunction

open UniJit.Lib UniJit.Runtime

variable (host : Host) (f : ControlFlowFunction)

/-- The messages of the control-flow interpreter's exits. -/
def texts : Texts where
  fastCall := "CFG fast call has no bound interpreter oracle"
  guard := "control-flow nonzero guard requested a runtime exit"
  safepoint := "execution interrupted at a control-flow safepoint"

/-- Run one instruction of a block body. -/
def runInstruction (v : Value) (cells : Cells) : Run Cells := do
  let n ← ofFault (orFault f.nodes[v.index]? .node)
  match n.opcode with
  | .op o => runOperation host texts f.valueType f.toSideTables n o v.index cells
  | _ => throw (.fault .node)

/-- Run the instructions of a block body in order. -/
def runInstructions : List Value → Cells → Run Cells
  | [], cells => pure cells
  | v :: vs, cells => do
      let cells ← f.runInstruction host v cells
      runInstructions vs cells

/-- Assign contents to parameters, one by one. -/
def assignParameters : List (Value × Payload) → Cells → Except Fault Cells
  | [], cells => .ok cells
  | (parameter, payload) :: rest, cells => do
      let cells ← writeCell cells parameter.index (f.valueType parameter) payload
      assignParameters rest cells

/-- Follow an edge: read its arguments, then assign the parameters of its target. -/
def takeEdge (edge : ControlEdge) (cells : Cells) : Except Fault Cells := do
  let target ← orFault f.blocks[edge.target.index]? .block
  require (edge.arguments.length ≤ target.parameters.length) .parameter
  let parameters := target.parameters.take edge.arguments.length
  let incoming ← readOperands cells edge.arguments
    (parameters.map fun parameter type => type == f.valueType parameter)
  f.assignParameters (parameters.zip incoming) cells

/-- Where a terminator leads: a returned word, or an edge. -/
def runTerminator (terminator : ControlTerminator) (cells : Cells) :
    Except Fault (Word ⊕ ControlEdge) :=
  match terminator with
  | .none => .error .block
  | .ret v => do
      let result ← readOperand cells v isScalarValueType
      pure (.inl result.word)
  | .jump edge => .ok (.inr edge)
  | .branch condition trueEdge falseEdge => do
      let condition ← readOperand cells condition (· == .word)
      pure (.inr (if condition.word ≠ 0 then trueEdge else falseEdge))

/-- The status of a run that used up its budget. -/
def budgetExhausted : Status where
  code := .resourceExhausted
  message := "control-flow execution budget was exhausted"

/-- Execute blocks from `current` on, at most `budget` of them. -/
def runBlocks : Nat → Block → Cells → Run Word
  | 0, _, _ => throw (.status budgetExhausted)
  | budget + 1, current, cells => do
      let block ← ofFault (orFault f.blocks[current.index]? .block)
      let cells ← f.runInstructions host (block.instructions.drop block.parameters.length) cells
      match ← ofFault (runTerminator block.terminator cells) with
      | .inl result => pure result
      | .inr edge =>
          let cells ← ofFault (f.takeEdge edge cells)
          runBlocks budget edge.target cells

/-- Assign the arguments of a run to the parameters of the entry block. -/
def enter (args : List Word) : Except Fault Cells := do
  let entry ← orFault f.blocks[f.entryBlock.index]? .block
  require (entry.parameters.length ≤ args.length) .parameter
  f.assignParameters (entry.parameters.zip (args.map Payload.scalar))
    (List.replicate f.nodes.length none)

/-- The run of a graph whose bindings have been checked. -/
def run (args : List Word) (budget : Nat) : Run Word := do
  modify fun m => { m with frame := List.replicate f.frameSlots.length 0 }
  let cells ← ofFault (f.enter args)
  f.runBlocks host budget f.entryBlock cells

/-- The control-flow interpreter. -/
def evaluate (args : List Word) (maximumBlockExecutions : Nat) : Run Word := do
  ofStatus f.verify
  ofStatus <| require (args.length = f.parameterCount)
    { code := .invalidArgument
      message := "argument count does not match the function signature" }
  ofStatus <| require (maximumBlockExecutions ≠ 0)
    { code := .invalidArgument, message := "control-flow execution budget must be positive" }
  modify (Machine.updateContext .clearExit)
  ofStatus <| validateTrustedObjectBindings f.trustedObjects
    (trustedObjectWritable (· == .op .storeObject) f.nodes f.trustedObjects.length)
    (← get).context
  f.run host args maximumBlockExecutions

end UniJit.Ir.ControlFlowFunction
