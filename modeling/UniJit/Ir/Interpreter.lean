import UniJit.Lib.Runs
import UniJit.Ir.Instruction
import UniJit.Ir.Verifier

/-!
# The straight-line interpreter

`Function.evaluate` verifies its function, checks the arguments and the context's objects, and
then runs the nodes in order.

The source keeps the values of a run in an array of words and an array of vectors. Here they are
one list of `Cell`s, one for each node, which is empty until the node has run. A cell carries the
type its node declares, and every read states the type it expects, so that a run notices when it
would read a value that is not there or is something else (see `Fault`). `runOperation` is the
part that both interpreters share.
-/

namespace UniJit.Ir

open UniJit.Lib UniJit.Runtime

variable {Op : Type}

/-- A value of a run with the type it was declared with. -/
structure Cell where
  type : ValueType
  payload : Payload
  deriving DecidableEq, Repr

/-- The values of a run; a value that has not been assigned is `none`. -/
abbrev Cells := List (Option Cell)

/-- How a run ends early: with a status, as in the source, or with a fault. -/
inductive Stop
  | status (status : Status)
  | fault (fault : Fault)
  deriving DecidableEq, Repr

/-- A computation on a machine that may stop. -/
abbrev Run := EStateM Stop Machine

/-- A step that may reach a fault, as a step of a run. -/
def ofFault {α : Type} : Except Fault α → Run α
  | .ok a => pure a
  | .error fault => throw (.fault fault)

/-- A step that may be refused with a status, as a step of a run. -/
def ofStatus {α : Type} : Except Status α → Run α
  | .ok a => pure a
  | .error status => throw (.status status)

/-- Read a value at a type. -/
def readOperand (cells : Cells) (v : Value) (expects : ValueType → Bool) :
    Except Fault Payload :=
  match cells[v.index]? with
  | none => .error .node
  | some none => .error .unassigned
  | some (some cell) => if expects cell.type then .ok cell.payload else .error .operandType

/-- Read the operands of an instruction in order. -/
def readOperands (cells : Cells) :
    List Value → List (ValueType → Bool) → Except Fault (List Payload)
  | [], [] => .ok []
  | v :: vs, expects :: rest => do
      let payload ← readOperand cells v expects
      let payloads ← readOperands cells vs rest
      pure (payload :: payloads)
  | _, _ => .error .operandCount

/-- Assign a value of a declared type. -/
def writeCell (cells : Cells) (index : Nat) (type : ValueType) (payload : Payload) :
    Except Fault Cells := do
  require (index < cells.length) .node
  require (payload.fits type) .resultType
  pure (cells.set index (some ⟨type, payload⟩))

/-- Execute the node of an operation and assign its result. -/
def runOperation (host : Host) (texts : Texts) (valueType : Value → ValueType) (t : SideTables)
    (n : NodeOf Op) (o : Operation) (index : Nat) (cells : Cells) : Run Cells := do
  let i ← ofFault (resolve valueType t n o)
  let operands ← ofFault (readOperands cells (operands t n o) i.expects)
  let result ← EStateM.adaptExcept .status (i.execute host texts operands)
  ofFault do
    require (i.yields n.type) .resultType
    writeCell cells index n.type result

/-- The objects that a list of nodes stores to. -/
def trustedObjectWritable (isStoreObject : Op → Bool) (nodes : List (NodeOf Op)) (count : Nat) :
    List Bool :=
  nodes.foldl
    (fun writable n =>
      if isStoreObject n.opcode then writable.set n.trustedObject.toNat true else writable)
    (List.replicate count false)

namespace Function

variable (host : Host) (f : Function) (args : List Word)

/-- The messages of the straight-line interpreter's exits. -/
def texts : Texts where
  fastCall := "fast call has no bound interpreter oracle"
  guard := "nonzero guard requested a runtime exit"
  safepoint := "execution interrupted at a safepoint"

/-- Run one node. -/
def runNode (index : Nat) (n : Node) (cells : Cells) : Run Cells :=
  match n.opcode with
  | .parameter => ofFault do
      let argument ← orFault args[n.immediate.toNat]? .parameter
      writeCell cells index n.type (.scalar argument)
  | .op o => runOperation host texts f.valueType f.toSideTables n o index cells

/-- Run nodes in order, the first of them at `index`. -/
def runNodes : Nat → List Node → Cells → Run Cells
  | _, [], cells => pure cells
  | index, n :: ns, cells => do
      let cells ← f.runNode host args index n cells
      runNodes (index + 1) ns cells

/-- The run of a function whose bindings have been checked. -/
def run : Run Word := do
  modify fun m => { m with frame := List.replicate f.frameSlots.length 0 }
  let cells ← f.runNodes host args 0 f.nodes (List.replicate f.nodes.length none)
  let result ← ofFault (readOperand cells f.returnValue isScalarValueType)
  pure result.word

/-- The straight-line interpreter. -/
def evaluate : Run Word := do
  ofStatus f.verify
  ofStatus <| require (args.length = f.parameterCount)
    { code := .invalidArgument
      message := "argument count does not match the function signature" }
  modify (Machine.updateContext .clearExit)
  ofStatus <| validateTrustedObjectBindings f.trustedObjects
    (trustedObjectWritable (· == .op .storeObject) f.nodes f.trustedObjects.length)
    (← get).context
  f.run host args

end Function

end UniJit.Ir
