import UniJit.Lib.Checked
import UniJit.Status

/-!
# Target profiles

What code is compiled for: an architecture with its calling convention, the optional features and
the vector width. A profile is checked before it is used, compared field by field by the code
cache, and compared by its key when a fast call is bound.
-/

namespace UniJit.Jit

open Lib

/-- The architectures. -/
inductive TargetArchitecture
  | unknown | aarch64 | x86_64 | riscv64
  deriving DecidableEq, Repr

/-- The calling conventions. -/
inductive TargetAbi
  | unknown | aapcs64 | systemV | windowsX64 | riscvElf
  deriving DecidableEq, Repr

/-- The byte orders. -/
inductive TargetEndianness
  | unknown | little | big
  deriving DecidableEq, Repr

/-- Whether vectors are portable or as wide as the target's. -/
inductive VectorWidthPolicy
  | portable128 | native
  deriving DecidableEq, Repr

/-- The optional features. -/
inductive TargetFeature
  | fp64 | neon | sse2 | avx | avx2 | fma | riscvIntegerMultiply | riscvFloat64 | riscvVector
  | aarch64Lse | riscvAtomic
  deriving DecidableEq, Repr

/-- The bit of a feature. -/
def targetFeatureBit (feature : TargetFeature) : BitVec 64 :=
  1 <<< feature.ctorIdx

/-- What code is compiled for. -/
structure TargetProfile where
  architecture : TargetArchitecture := .unknown
  abi : TargetAbi := .unknown
  endianness : TargetEndianness := .unknown
  features : BitVec 64 := 0
  vectorWidthPolicy : VectorWidthPolicy := .portable128
  maximumVectorBits : BitVec 16 := 128
  deriving DecidableEq, Repr

/-- The profile has the feature. -/
def hasTargetFeature (profile : TargetProfile) (feature : TargetFeature) : Bool :=
  profile.features &&& targetFeatureBit feature ≠ 0

/-- The calling conventions of an architecture. -/
def abiMatchesArchitecture : TargetArchitecture → TargetAbi → Bool
  | .aarch64, abi => abi = .aapcs64
  | .x86_64, abi => abi = .systemV ∨ abi = .windowsX64
  | .riscv64, abi => abi = .riscvElf
  | .unknown, _ => false

/-- The features an architecture must have. -/
def requiredFeatures : TargetArchitecture → BitVec 64
  | .aarch64 => targetFeatureBit .fp64 ||| targetFeatureBit .neon
  | .x86_64 => targetFeatureBit .fp64 ||| targetFeatureBit .sse2
  | .riscv64 =>
      targetFeatureBit .fp64 ||| targetFeatureBit .riscvIntegerMultiply |||
        targetFeatureBit .riscvFloat64
  | .unknown => 0

/-- The features an architecture may have. -/
def allowedFeatures : TargetArchitecture → BitVec 64
  | .aarch64 => requiredFeatures .aarch64 ||| targetFeatureBit .aarch64Lse
  | .x86_64 =>
      requiredFeatures .x86_64 ||| targetFeatureBit .avx ||| targetFeatureBit .avx2 |||
        targetFeatureBit .fma
  | .riscv64 =>
      requiredFeatures .riscv64 ||| targetFeatureBit .riscvVector ||| targetFeatureBit .riscvAtomic
  | .unknown => 0

/-- Refuses a profile that does not fit together. -/
def validateTargetProfile (profile : TargetProfile) : Except Status Unit := do
  let reject message : Status := ⟨.invalidArgument, message, 0⟩
  require (abiMatchesArchitecture profile.architecture profile.abi)
    (reject "target architecture and ABI are inconsistent")
  require (profile.endianness = .little)
    (reject "current native backends require little-endian targets")
  let allowed := allowedFeatures profile.architecture
  let required := requiredFeatures profile.architecture
  require (profile.features &&& ~~~allowed = 0)
    (reject "target profile contains features from another architecture")
  require (profile.features &&& required = required)
    (reject "target profile omits a required backend baseline feature")
  require (hasTargetFeature profile .avx2 → hasTargetFeature profile .avx)
    (reject "AVX2 requires the AVX target feature")
  require (hasTargetFeature profile .fma → hasTargetFeature profile .avx)
    (reject "x86 FMA requires the AVX target feature")
  require (¬ (profile.maximumVectorBits < 128 ∨ profile.maximumVectorBits % 128 ≠ 0))
    (reject "target vector width must be a positive multiple of 128 bits")
  require (profile.vectorWidthPolicy = .portable128 → profile.maximumVectorBits = 128)
    (reject "portable vector policy requires an exact 128-bit width")

/-- The field-by-field comparison of two profiles. -/
def targetProfilesEqual (lhs rhs : TargetProfile) : Bool :=
  lhs.architecture = rhs.architecture ∧ lhs.abi = rhs.abi ∧ lhs.endianness = rhs.endianness ∧
    lhs.features = rhs.features ∧ lhs.vectorWidthPolicy = rhs.vectorWidthPolicy ∧
    lhs.maximumVectorBits = rhs.maximumVectorBits

/-- Works a byte into the hash. -/
def hashByte (hash : BitVec 64) (value : BitVec 8) : BitVec 64 :=
  (hash ^^^ value.setWidth 64) * 1099511628211

/-- The bytes that identify a profile, in the order in which they are hashed. -/
def targetProfileBytes (profile : TargetProfile) : List (BitVec 8) :=
  [BitVec.ofNat 8 profile.architecture.ctorIdx, BitVec.ofNat 8 profile.abi.ctorIdx,
    BitVec.ofNat 8 profile.endianness.ctorIdx] ++
  (List.range 8).map (fun index => (profile.features >>> (8 * index)).setWidth 8) ++
  [BitVec.ofNat 8 profile.vectorWidthPolicy.ctorIdx, profile.maximumVectorBits.setWidth 8,
    (profile.maximumVectorBits >>> 8).setWidth 8]

/-- The hash of a profile. -/
def targetProfileKey (profile : TargetProfile) : BitVec 64 :=
  (targetProfileBytes profile).foldl hashByte 14695981039346656037

end UniJit.Jit
