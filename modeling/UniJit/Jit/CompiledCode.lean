import UniJit.Ir.Function
import UniJit.Jit.Target
import UniJit.Runtime.Assumption

/-!
# Compiled functions

What the code cache, the binding of fast calls and managed invocation read of a compiled function.
All of it is immutable after the compilation; the patch cells and the fast-call targets, which are
not, are part of the states of the components that change them.
-/

namespace UniJit.Jit

open UniJit.Ir UniJit.Runtime

/-- The address of native code; the entry of a function is never null. -/
abbrev NativeEntry := Nat

/-- A compiled function as invocations see it. -/
structure CompiledCode where
  /-- The identity of the object: its address. -/
  number : Nat
  entry : NativeEntry
  parameterTypes : List ValueType := []
  returnType : ValueType := .word
  targetProfile : TargetProfile := {}
  /-- The host has every feature of the profile. -/
  hostCompatible : Bool := true
  executableMappingSize : Nat := 0
  requiresContext : Bool := false
  trustedObjects : List TrustedObjectDescriptor := []
  trustedObjectWritable : List Bool := []
  patchCells : List PatchCellDescriptor := []
  fastCalls : List FastCallDescriptor := []
  assumptions : AssumptionSet := .empty
  deriving DecidableEq

namespace CompiledCode

/-- The number of parameters. -/
def parameterCount (f : CompiledCode) : Nat := f.parameterTypes.length

/-- The type of a parameter, a word past the declared ones. -/
def parameterType (f : CompiledCode) (index : Nat) : ValueType :=
  f.parameterTypes.getD index .word

/-- The entry that may be called without managed invocation. -/
def nativeEntry (f : CompiledCode) : Option NativeEntry :=
  if ¬ f.hostCompatible ∨ f.trustedObjects ≠ [] ∨ f.patchCells ≠ [] ∨ f.fastCalls ≠ [] then none
  else some f.entry

end CompiledCode

end UniJit.Jit
