import UniJit.Ir.ControlFlow
import UniJit.Lib.Checked

/-!
# Compilation limits

The resource limits that an embedder sets for a compilation, and the check of a function against
them. The limits are positive and otherwise arbitrary: raising one admits functions with larger
tables, up to what the verifier and the back ends accept by themselves.
-/

namespace UniJit.Jit

open UniJit.Ir UniJit.Lib

/-- The limits of a compilation, with the defaults. -/
structure CompilationLimits where
  maximumParameters : Nat := 256
  maximumIrNodes : Nat := 64 * 1024
  maximumCfgBlocks : Nat := 1024
  maximumIrArguments : Nat := 256 * 1024
  maximumMemoryRegions : Nat := 64
  maximumMemoryAccesses : Nat := 64 * 1024
  maximumAtomicAccesses : Nat := 64 * 1024
  maximumVectorConstants : Nat := 64 * 1024
  maximumVectorShuffles : Nat := 64 * 1024
  maximumVectorSelects : Nat := 64 * 1024
  maximumFrameSlots : Nat := 256
  maximumTrustedObjects : Nat := 64
  maximumPatchCells : Nat := 256
  maximumFastCalls : Nat := 64
  maximumStackMaps : Nat := 4096
  maximumMetadataValues : Nat := 256 * 1024
  maximumCodeBytes : Nat := 16 * 1024 * 1024
  deriving DecidableEq, Repr

/-- Every limit. -/
def CompilationLimits.all (limits : CompilationLimits) : List Nat :=
  [limits.maximumParameters, limits.maximumIrNodes, limits.maximumCfgBlocks,
   limits.maximumIrArguments, limits.maximumMemoryRegions, limits.maximumMemoryAccesses,
   limits.maximumAtomicAccesses, limits.maximumVectorConstants, limits.maximumVectorShuffles,
   limits.maximumVectorSelects, limits.maximumFrameSlots, limits.maximumTrustedObjects,
   limits.maximumPatchCells, limits.maximumFastCalls, limits.maximumStackMaps,
   limits.maximumMetadataValues, limits.maximumCodeBytes]

/-- No limit is zero. -/
def validateCompilationLimits (limits : CompilationLimits) : Except Status Unit :=
  require (0 ∉ limits.all)
    ⟨.invalidArgument, "compilation resource limits must all be positive", 0⟩

/-! ## Requested metadata -/

/-- An exit record, with the number of values it recovers. -/
structure DeoptimizationRecord where
  site : Nat
  recovery : Nat
  deriving DecidableEq, Repr

/-- What a compilation is asked to record: the deoptimization table, and the sites of the
assumptions it depends on. -/
structure RequestedMetadata where
  records : List DeoptimizationRecord := []
  dependencies : List Nat := []
  deriving DecidableEq, Repr

/-- A record for the site was requested. -/
def RequestedMetadata.finds (metadata : RequestedMetadata) (site : Nat) : Bool :=
  metadata.records.any (·.site == site)

/-- The refusal of what is beyond a limit. -/
def resourceExhausted (message : String) (location : Nat) : Status :=
  ⟨.resourceExhausted, message, location⟩

/-- Add to a total, up to a limit. -/
def addBounded (value limit total : Nat) (message : String) (location : Nat) :
    Except Status Nat := do
  require (¬ (limit < total ∨ limit - total < value)) (resourceExhausted message location)
  pure (total + value)

/-- Compares the requested records with the limits. -/
def validateRequestedMetadata (metadata : RequestedMetadata) (parameterCount : Nat)
    (limits : CompilationLimits) : Except Status Unit := do
  require (metadata.records.length ≤ limits.maximumStackMaps)
    (resourceExhausted "compilation exceeds the exit-record limit" 0)
  let _ ← foldExcept (fun _ site records =>
      if metadata.finds site then pure records
      else do
        require (records ≠ limits.maximumStackMaps)
          (resourceExhausted "compilation exceeds the exit-record limit" site)
        pure (records + 1))
    0 metadata.dependencies metadata.records.length
  let values ← foldExcept (fun _ (record : DeoptimizationRecord) values =>
      addBounded record.recovery limits.maximumMetadataValues values
        "compilation exceeds the deoptimization value limit" record.site)
    0 metadata.records 0
  let _ ← foldExcept (fun _ site values =>
      if metadata.finds site then pure values
      else addBounded parameterCount limits.maximumMetadataValues values
        "compilation exceeds the deoptimization value limit" site)
    0 metadata.dependencies values
  pure ()

/-! ## Functions -/

/-- A count that must not pass its limit. -/
def requireCount (count limit : Nat) (message : String) : Except Status Unit :=
  require (count ≤ limit) (resourceExhausted message count)

/-- Compares a straight-line function with the limits. -/
def validateFunctionLimits (f : Function) (metadata : RequestedMetadata)
    (limits : CompilationLimits) : Except Status Unit := do
  validateCompilationLimits limits
  requireCount f.parameterCount limits.maximumParameters
    "compilation exceeds the parameter limit"
  requireCount f.nodes.length limits.maximumIrNodes "compilation exceeds the IR node limit"
  requireCount f.callArguments.length limits.maximumIrArguments
    "compilation exceeds the IR argument limit"
  requireCount f.memoryRegionCount limits.maximumMemoryRegions
    "compilation exceeds the memory region limit"
  requireCount f.memoryAccesses.length limits.maximumMemoryAccesses
    "compilation exceeds the memory access limit"
  requireCount f.atomicAccesses.length limits.maximumAtomicAccesses
    "compilation exceeds the atomic access limit"
  requireCount f.vectorConstants.length limits.maximumVectorConstants
    "compilation exceeds the vector constant limit"
  requireCount f.vectorShuffles.length limits.maximumVectorShuffles
    "compilation exceeds the vector shuffle limit"
  requireCount f.vectorSelectArguments.length limits.maximumVectorSelects
    "compilation exceeds the vector select limit"
  requireCount f.frameSlots.length limits.maximumFrameSlots
    "compilation exceeds the frame slot limit"
  requireCount f.trustedObjects.length limits.maximumTrustedObjects
    "compilation exceeds the trusted object limit"
  requireCount f.patchCells.length limits.maximumPatchCells
    "compilation exceeds the patch-cell limit"
  requireCount f.fastCalls.length limits.maximumFastCalls
    "compilation exceeds the fast-call limit"
  validateRequestedMetadata metadata f.parameterCount limits

/-- Compares a graph with the limits. -/
def validateControlFlowLimits (f : ControlFlowFunction) (metadata : RequestedMetadata)
    (limits : CompilationLimits) : Except Status Unit := do
  validateCompilationLimits limits
  requireCount f.parameterCount limits.maximumParameters
    "compilation exceeds the parameter limit"
  requireCount f.nodes.length limits.maximumIrNodes "compilation exceeds the IR node limit"
  requireCount f.blocks.length limits.maximumCfgBlocks "compilation exceeds the CFG block limit"
  requireCount f.memoryRegionCount limits.maximumMemoryRegions
    "compilation exceeds the CFG memory region limit"
  requireCount f.memoryAccesses.length limits.maximumMemoryAccesses
    "compilation exceeds the CFG memory access limit"
  requireCount f.atomicAccesses.length limits.maximumAtomicAccesses
    "compilation exceeds the CFG atomic access limit"
  requireCount f.vectorConstants.length limits.maximumVectorConstants
    "compilation exceeds the CFG vector constant limit"
  requireCount f.vectorShuffles.length limits.maximumVectorShuffles
    "compilation exceeds the CFG vector shuffle limit"
  requireCount f.vectorSelectArguments.length limits.maximumVectorSelects
    "compilation exceeds the CFG vector select limit"
  requireCount f.frameSlots.length limits.maximumFrameSlots
    "compilation exceeds the CFG frame slot limit"
  requireCount f.trustedObjects.length limits.maximumTrustedObjects
    "compilation exceeds the CFG trusted object limit"
  requireCount f.patchCells.length limits.maximumPatchCells
    "compilation exceeds the CFG patch-cell limit"
  requireCount f.fastCalls.length limits.maximumFastCalls
    "compilation exceeds the CFG fast-call limit"
  requireCount f.callArguments.length limits.maximumIrArguments
    "compilation exceeds the CFG argument limit"
  let _ ← foldExcept (fun index (block : BasicBlock) arguments =>
      foldExcept (fun _ (edge : ControlEdge) arguments =>
          addBounded edge.arguments.length limits.maximumIrArguments arguments
            "compilation exceeds the CFG argument limit" index)
        0 block.terminator.edges arguments)
    0 f.blocks f.callArguments.length
  validateRequestedMetadata metadata f.parameterCount limits

end UniJit.Jit
