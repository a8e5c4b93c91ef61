import UniJit.Ir.PackageRoundTrip
import UniJit.Jit.TieringClaims
import UniJit.Jit.TieringRaces
import UniJit.Ir.MaskCanonicity
import UniJit.Jit.CodeCacheEviction
import UniJit.Runtime.MaterializationPlans
import UniJit.Runtime.OnStackReplacement
import UniJit.Jit.DeoptimizationMetadata
import UniJit.Jit.InvocationExits
import UniJit.Jit.InvocationWakeups
import UniJit.Jit.SchedulerLanes
import UniJit.Lua.OptimizationClaims
import UniJit.Embedding.BuilderMirror
import UniJit.Jit.IntegerBackends
import UniJit.Jit.AtomicAgreement
import UniJit.Jit.AtomicSites
import UniJit.Ir.PackageDigest
import UniJit.Ir.ConstantFolding
import UniJit.Jit.ConstantsInCode
import UniJit.Lua.FloatCalls
