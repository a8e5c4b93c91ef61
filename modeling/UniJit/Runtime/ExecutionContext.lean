import UniJit.Status
import UniJit.Ir.Arithmetic
import UniJit.Lib.Checked

/-!
# Execution contexts and machines

An `ExecutionContext` is what an embedder binds for a run: memory regions, trusted objects and
fast-call oracles, together with the record of how the run ended. Pointers are addresses in one
flat byte memory, so two regions or objects may overlap, as they may in the source; the address
`0` is the null pointer.

A `Machine` is everything a run can observe or change outside its own value arrays: the context
(there may be none), the memory, the frame of the run and the helper calls made so far. A run is
a computation in `Exec`, which keeps the machine when it stops with a status.
-/

namespace UniJit.Runtime

open UniJit.Ir UniJit.Lib

/-- Why native code was left. -/
inductive ExitReason
  | none | safepoint | runtime
  deriving DecidableEq, Repr

/-- A region bound to a context. -/
structure MemoryRegion where
  data : Nat := 0
  size : Nat := 0
  writable : Bool := false
  deriving DecidableEq, Repr

/-- An object bound to a context. -/
structure TrustedObject where
  data : Nat := 0
  size : Nat := 0
  layoutIdentity : BitVec 64 := 0
  writable : Bool := false
  deriving DecidableEq, Repr

/-- The address of a runtime helper. -/
abbrev RuntimeHelper := Word

/-- What native code and the interpreters share with their caller. -/
structure ExecutionContext where
  exitReason : ExitReason := .none
  exitSite : Nat := 0
  exitValue : Word := 0
  capturedValueCount : Nat := 0
  safepointPolls : BitVec 64 := 0
  memoryRegions : List MemoryRegion := []
  trustedObjects : List TrustedObject := []
  /-- The bound oracles; an entry may be null. -/
  fastCallOracles : List (Option RuntimeHelper) := []
  deriving DecidableEq, Repr

namespace ExecutionContext

/-- Forgets the last exit. -/
def clearExit (context : ExecutionContext) : ExecutionContext :=
  { context with
    exitReason := .none, exitSite := 0, exitValue := 0, capturedValueCount := 0,
    safepointPolls := 0 }

/-- Counts a poll. -/
def recordSafepointPoll (context : ExecutionContext) : ExecutionContext :=
  { context with safepointPolls := context.safepointPolls + 1 }

/-- Records an exit. -/
def recordExit (reason : ExitReason) (site : Nat) (value : Word) (context : ExecutionContext) :
    ExecutionContext :=
  { context with exitValue := value, exitSite := site, exitReason := reason }

/-- Bind a table of regions, kept at `storage`. -/
def bindMemoryRegions (storage : Nat) (regions : List MemoryRegion) (context : ExecutionContext) :
    Except Status ExecutionContext := do
  require (¬ (regions.length ≠ 0 ∧ storage = 0))
    ⟨.invalidArgument, "memory-region storage is null for a non-empty binding", 0⟩
  regions.zipIdx.forM fun (region, index) => do
    require (¬ (region.size ≠ 0 ∧ region.data = 0))
      ⟨.invalidArgument, "non-empty memory region has a null base", index⟩
    require (¬ 2 ^ 64 - 1 - region.data < region.size)
      ⟨.invalidArgument, "memory region wraps the process address space", index⟩
  pure { context with memoryRegions := regions }

end ExecutionContext

/-- A flat byte memory. -/
abbrev Memory := Nat → Byte

/-- The context, the memory and the frame slots of a run. -/
structure Machine where
  context : Option ExecutionContext := none
  memory : Memory := fun _ => 0
  /-- The frame slots of the run. -/
  frame : List Word := []
  /-- The helpers and oracles called so far with their arguments, the latest last. -/
  helperCalls : List (RuntimeHelper × List Word) := []
  /-- The polls for an interrupt so far. -/
  polls : Nat := 0

/-- A computation on a machine that may stop with a status. -/
abbrev Exec := EStateM Status Machine

/-- What a run takes from its host. Helpers and oracles are functions of their arguments, and the
answer to a poll for an interrupt may depend on the number of earlier polls: another thread may
request the interrupt at any time. -/
structure Host where
  float : FloatUnit
  littleEndian : Bool
  helper : RuntimeHelper → List Word → Word
  exitPollRequested : Nat → Bool

namespace Machine

/-- Change the context, if there is one. -/
def updateContext (update : ExecutionContext → ExecutionContext) (m : Machine) : Machine :=
  { m with context := m.context.map update }

/-- The bytes from an address on. -/
def readBytes (m : Machine) (address count : Nat) : List Byte :=
  (List.range count).map fun index => m.memory (address + index)

/-- Write bytes from an address on. -/
def writeBytes (m : Machine) (address : Nat) (bytes : List Byte) : Machine :=
  { m with memory := fun a =>
      if address ≤ a ∧ a < address + bytes.length then bytes.getD (a - address) 0
      else m.memory a }

end Machine

/-- Record the exit of a run in its context and stop with a status. -/
def stopAt (reason : ExitReason) (code : StatusCode) (message : String) (site : Nat)
    (value : Word) {α : Type} : Exec α := do
  modify (Machine.updateContext (.recordExit reason site value))
  throw { code := code, message := message, location := site }

end UniJit.Runtime
