import UniJit.Ir.Builder
import UniJit.Jit.CompilationLimits

/-!
# The builder of the C interface

A client of the C interface holds a handle with a native `FunctionBuilder` inside. The handle keeps
its own record of what has been built, the types of the values, the fast-call descriptors and two
counts, and checks every argument against this record before it calls the native builder.

A call is a function of the handle and of a `CallFrame`, which says how the call is made: whether
the handle is null, what the error output is, and where an allocation fails. Every call is wrapped
in `guarded`, which refuses an error output that is in use already and turns exceptions into error
codes. The messages and details of the errors are the source's.
-/

namespace UniJit.Embedding

open UniJit.Ir UniJit.Lib UniJit.Jit

/-! ## Errors -/

/-- The status codes of the C interface. -/
inductive AbiStatusCode
  | ok
  | invalidArgument
  | invalidIr
  | unsupportedArchitecture
  | resourceExhausted
  | codeGenerationFailed
  | memoryProtectionFailed
  | executionInterrupted
  | runtimeExit
  | cancelled
  | deadlineExceeded
  | unavailable
  | internal
  deriving DecidableEq, Repr

/-- The C code of a status code. -/
def statusCode : StatusCode → AbiStatusCode
  | .ok => .ok
  | .invalidArgument => .invalidArgument
  | .invalidIr => .invalidIr
  | .unsupportedArchitecture => .unsupportedArchitecture
  | .resourceExhausted => .resourceExhausted
  | .codeGenerationFailed => .codeGenerationFailed
  | .memoryProtectionFailed => .memoryProtectionFailed
  | .executionInterrupted => .executionInterrupted
  | .runtimeExit => .runtimeExit
  | .cancelled => .cancelled
  | .deadlineExceeded => .deadlineExceeded
  | .unavailable => .unavailable

/-- An error as a caller of the C interface reads it. -/
structure AbiError where
  code : AbiStatusCode
  message : String
  detail : Nat := 0
  deriving DecidableEq, Repr

/-- The C error of a status. -/
def AbiError.ofStatus (status : Status) : AbiError :=
  ⟨statusCode status.code, status.message, status.location⟩

/-- A refusal of an argument. -/
def invalid (message : String) (detail : Nat := 0) : AbiError :=
  ⟨.invalidArgument, message, detail⟩

/-- What can be thrown below the interface. -/
inductive Exception
  | badAlloc
  | standard
  | unknown
  deriving DecidableEq, Repr

/-- How a call fails inside. -/
inductive Failure
  | returned (error : AbiError)
  | thrown (exception : Exception)
  deriving DecidableEq, Repr

/-- The error output of a call: a null pointer, or a pointer to a place that is free or not. -/
inductive ErrorOutput
  | absent
  | empty
  | occupied
  deriving DecidableEq, Repr

/-- How a call is made, and where an exception is thrown, if any: when the call allocates its own
lists, when it makes room in the record of the handle, or inside the native builder. -/
structure CallFrame where
  nullBuilder : Bool := false
  error : ErrorOutput := .absent
  reserve : Option Exception := none
  prepare : Option Exception := none
  native : Option Exception := none
  deriving DecidableEq, Repr

/-- Every allocation of the call succeeds. -/
def CallFrame.Allocates (frame : CallFrame) : Prop :=
  frame.reserve = none ∧ frame.prepare = none ∧ frame.native = none

/-- A place at which the call's exception, if it has one, is thrown. -/
def mayThrow (exception : Option Exception) : Except Failure Unit :=
  match exception with
  | none => .ok ()
  | some exception => .error (.thrown exception)

/-- The error to which a caught exception is turned at the boundary. -/
def blocked : Exception → AbiError
  | .badAlloc => ⟨.resourceExhausted, "allocation failed at the C ABI boundary", 0⟩
  | .standard => ⟨.internal, "unexpected exception blocked at the C ABI boundary", 0⟩
  | .unknown => ⟨.internal, "unknown exception blocked at the C ABI boundary", 0⟩

/-! ## The handle -/

/-- The handle: the builder and the mirrors and limits kept beside it. -/
structure BuilderHandle where
  implementation : Option FunctionBuilder
  valueTypes : List ValueType
  fastCalls : List FastCallDescriptor := []
  maximumNodes : Nat
  maximumIrArguments : Nat
  maximumFastCalls : Nat
  maximumPatchCells : Nat
  callArguments : Nat := 0
  patchCells : Nat := 0
  deriving DecidableEq, Repr

/-- What a successful call writes to its output. -/
inductive Output
  | none
  | value (value : Value)
  | slot (id : BitVec 32)
  | function (function : Function)
  deriving DecidableEq, Repr

/-- What a call reports and the handle after it. -/
abbrev Answer := Except Failure Output × BuilderHandle

/-- The type of a C enumerator. -/
def valueTypeFromC (input : BitVec 32) : Option ValueType :=
  if input = 0 then some .word else if input = 1 then some .float64 else none

/-- The native types of an array of the client. -/
def valueTypesFromC (types : Option (Nat → BitVec 32)) (count : Nat) (message : String) :
    Except Failure (List ValueType) :=
  (List.range count).mapM fun index =>
    match types.bind fun array => valueTypeFromC (array index) with
    | some type => .ok type
    | none => .error (.returned (invalid message index))

/-- The kind of patch cell of a C enumerator. -/
def patchKindFromC (kind : BitVec 32) : Option PatchCellKind :=
  if kind = 0 then some .value
  else if kind = 1 then some .target
  else if kind = 2 then some .shape
  else if kind = 3 then some .generation
  else if kind = 4 then some .counter
  else none

/-! ## Creation -/

/-- The C structure of limits, with its size and reserved fields. -/
structure AbiCompilationLimits where
  structSize : BitVec 32
  reserved0 : BitVec 32 := 0
  limits : CompilationLimits
  reserved : List (BitVec 64) := [0, 0, 0, 0]

/-- The limits of a C structure, refused when its size or reserved fields are wrong. -/
def limitsFromC (input : AbiCompilationLimits) : Option CompilationLimits :=
  if input.structSize.toNat < 176 ∨ input.reserved0 ≠ 0 ∨ ¬ input.reserved.all (· = 0) then none
  else if 0 ∈ input.limits.all then none
  else some input.limits

/-- The limits of a builder, with the defaults for a null pointer. -/
def nativeLimits : Option AbiCompilationLimits → Except Failure CompilationLimits
  | none => .ok {}
  | some input =>
      match limitsFromC input with
      | some limits => .ok limits
      | none => .error (.returned (invalid "compilation limits are malformed"))

/-- `unijit_v1_builder_create`; `output` is false when the place for the handle is null. -/
def builderCreate (frame : CallFrame) (parameterTypes : Option (Nat → BitVec 32))
    (parameterCount : BitVec 64) (limits : Option AbiCompilationLimits) (output : Bool) :
    Except Failure BuilderHandle := do
  require output (.returned (invalid "builder output is null"))
  let limits ← nativeLimits limits
  let count := parameterCount.toNat
  require (¬ (limits.maximumParameters < count ∨ kInvalidIndex.toNat ≤ count ∨
      (count ≠ 0 ∧ parameterTypes.isNone)))
    (.returned (invalid "builder parameter list exceeds its validated bounds" count))
  mayThrow frame.reserve
  let types ← valueTypesFromC parameterTypes count "builder parameter type is unsupported"
  mayThrow frame.prepare
  pure
    { implementation := some (.create types)
      valueTypes := types
      maximumNodes := limits.maximumIrNodes
      maximumIrArguments := limits.maximumIrArguments
      maximumFastCalls := limits.maximumFastCalls
      maximumPatchCells := limits.maximumPatchCells }

/-! ## Checks against the record -/

namespace BuilderHandle

variable (b : BuilderHandle) (frame : CallFrame)

/-- The native builder, if there is one and the other arguments are as they should. -/
def requireBuilder (condition : Prop) [Decidable condition] (error : AbiError) :
    Except Failure FunctionBuilder :=
  match if frame.nullBuilder then none else b.implementation with
  | some implementation => if condition then .ok implementation else .error (.returned error)
  | none => .error (.returned error)

/-- Refuses a value that the handle does not know under the expected type. -/
def requireValue (value : Value) (expected : ValueType) : Except Failure Unit := do
  require (value.index < b.valueTypes.length)
    (.returned (invalid "value does not belong to the active builder" value.index))
  require (b.valueTypes[value.index]? = some expected)
    (.returned (invalid "value type does not match the requested operation" value.index))

/-- Room for one more value in the record. -/
def prepareValue : Except Failure Unit := do
  require (¬ (b.maximumNodes ≤ b.valueTypes.length ∨ kInvalidIndex.toNat ≤ b.valueTypes.length))
    (.returned ⟨.resourceExhausted, "builder exceeds its IR node budget", b.valueTypes.length⟩)
  mayThrow frame.prepare

/-- Checks change nothing; what comes after them does. -/
def checked {α : Type} (checks : Except Failure α) (act : α → Answer) : Answer :=
  match checks with
  | .error failure => (.error failure, b)
  | .ok a => act a

/-- The record of a value that the native builder has made. -/
def finishValue (native : Value) (type : ValueType) (write : Bool := true) : Answer :=
  if ¬ native.valid ∨ native.index ≠ b.valueTypes.length then
    (.error (.returned ⟨.internal, "builder produced an inconsistent value token", 0⟩), b)
  else (.ok (if write then .value native else .none),
    { b with valueTypes := b.valueTypes ++ [type] })

/-- The native builder makes a value. When it throws, it is as before. -/
def makeValue (native : Value × FunctionBuilder) (type : ValueType) (write : Bool := true) :
    Answer :=
  match frame.native with
  | some exception => (.error (.thrown exception), b)
  | none => { b with implementation := some native.2 }.finishValue native.1 type write

/-! ## The calls -/

/-- Returns a parameter. -/
def parameter (index : BitVec 64) (output : Bool) : Answer :=
  b.checked (b.requireBuilder frame (output ∧ index.toNat < b.valueTypes.length)
      (invalid "builder parameter index or output is invalid" index.toNat))
    fun implementation =>
      let native := implementation.parameter index.toNat
      if ¬ native.valid then
        (.error (.returned ⟨.internal, "builder failed to resolve a validated parameter",
          index.toNat⟩), b)
      else (.ok (.value native), b)

/-- Appends a word constant. -/
def wordConstant (bits : Word) (output : Bool) : Answer :=
  b.checked (do
      let implementation ← b.requireBuilder frame output (invalid "builder or value output is null")
      b.prepareValue frame
      pure implementation)
    fun implementation => b.makeValue frame (implementation.constant bits) .word

/-- Appends a Float64 constant. -/
def float64ConstantBits (bits : Word) (output : Bool) : Answer :=
  b.checked (do
      let implementation ← b.requireBuilder frame output (invalid "builder or value output is null")
      b.prepareValue frame
      pure implementation)
    fun implementation => b.makeValue frame (implementation.float64ConstantBits bits) .float64

/-- The native operation of a binary operation code, with the type of its result. -/
def binaryOperation :
    Nat → Option ((FunctionBuilder → Value → Value → Value × FunctionBuilder) × ValueType)
  | 0 => some (FunctionBuilder.add, .word)
  | 1 => some (FunctionBuilder.subtract, .word)
  | 2 => some (FunctionBuilder.multiply, .word)
  | 3 => some (FunctionBuilder.bitwiseAnd, .word)
  | 4 => some (FunctionBuilder.bitwiseOr, .word)
  | 5 => some (FunctionBuilder.bitwiseXor, .word)
  | 6 => some (FunctionBuilder.shiftLeft, .word)
  | 7 => some (FunctionBuilder.floorDivide, .word)
  | 8 => some (FunctionBuilder.floorModulo, .word)
  | 9 => some (FunctionBuilder.lessThan, .word)
  | 10 => some (FunctionBuilder.lessEqual, .word)
  | 11 => some (FunctionBuilder.equal, .word)
  | 12 => some (FunctionBuilder.notEqual, .word)
  | 16 => some (FunctionBuilder.float64Add, .float64)
  | 17 => some (FunctionBuilder.float64Subtract, .float64)
  | 18 => some (FunctionBuilder.float64Multiply, .float64)
  | 19 => some (FunctionBuilder.float64Divide, .float64)
  | 20 => some (FunctionBuilder.float64LessThan, .word)
  | 21 => some (FunctionBuilder.float64LessEqual, .word)
  | 22 => some (FunctionBuilder.float64Equal, .word)
  | 23 => some (FunctionBuilder.float64NotEqual, .word)
  | _ => none

/-- The type of the operands of a binary operation code. -/
def binaryInputType (operation : Nat) : ValueType :=
  if 16 ≤ operation ∧ operation ≤ 23 then .float64 else .word

/-- Appends the binary operation of a C enumerator. -/
def binary (operation : BitVec 32) (lhs rhs : Value) (output : Bool) : Answer :=
  b.checked (do
      let implementation ← b.requireBuilder frame output (invalid "builder or value output is null")
      b.requireValue lhs (binaryInputType operation.toNat)
      b.requireValue rhs (binaryInputType operation.toNat)
      b.prepareValue frame
      match binaryOperation operation.toNat with
      | none =>
          .error (.returned (invalid "binary operation is unsupported" operation.toNat))
      | some (native, type) => pure (native implementation lhs rhs, type))
    fun (native, type) => b.makeValue frame native type

/-- The builder's method for a C enumerator. -/
def unaryOperation : Nat → Option (FunctionBuilder → Value → Value × FunctionBuilder)
  | 0 => some FunctionBuilder.negate
  | 1 => some FunctionBuilder.bitwiseNot
  | 2 => some FunctionBuilder.float64Negate
  | _ => none

/-- The type a unary operation takes and gives. -/
def unaryType (operation : Nat) : ValueType := if operation = 2 then .float64 else .word

/-- Appends the unary operation of a C enumerator. -/
def unary (operation : BitVec 32) (input : Value) (output : Bool) : Answer :=
  b.checked (do
      let implementation ← b.requireBuilder frame output (invalid "builder or value output is null")
      b.requireValue input (unaryType operation.toNat)
      b.prepareValue frame
      match unaryOperation operation.toNat with
      | none => .error (.returned (invalid "unary operation is unsupported" operation.toNat))
      | some native => pure (native implementation input))
    fun native => b.makeValue frame native (unaryType operation.toNat)

/-- Appends the guard that fits the operand's type. -/
def guardNonzero (input : Value) (site : BitVec 64) : Answer :=
  b.checked (do
      let implementation ← b.requireBuilder frame
        (input.index < b.valueTypes.length ∧ ¬ maximumWord < site.toNat)
        (invalid "guard input or site is invalid" site.toNat)
      b.prepareValue frame
      match b.valueTypes[input.index]? with
      | some .word => pure (implementation.guardWordNonzero input site.toNat)
      | some .float64 => pure (implementation.guardFloat64Nonzero input site.toNat)
      | _ => .error (.returned (invalid "guard input type is unsupported" input.index)))
    fun native => b.makeValue frame native .word false

/-- Appends a safepoint. -/
def safepoint (site : BitVec 64) : Answer :=
  b.checked (do
      let implementation ← b.requireBuilder frame (¬ maximumWord < site.toNat)
        (invalid "safepoint site is invalid" site.toNat)
      b.prepareValue frame
      pure implementation)
    fun implementation => b.makeValue frame (implementation.safepoint site.toNat) .word false

/-- Declares a fast-call target. -/
def declareFastCall (parameterTypes : Option (Nat → BitVec 32)) (parameterCount : BitVec 64)
    (returnType : BitVec 32) (output : Bool) : Answer :=
  b.checked (do
      let implementation ← b.requireBuilder frame
        (output ∧ ¬ b.maximumFastCalls ≤ b.fastCalls.length)
        (invalid "fast-call declaration or output is invalid"
          (if frame.nullBuilder then 0 else b.fastCalls.length))
      require (¬ (b.maximumIrArguments < parameterCount.toNat ∨
          (parameterCount ≠ 0 ∧ parameterTypes.isNone)))
        (.returned (invalid "fast-call parameter list exceeds its bounds" parameterCount.toNat))
      match valueTypeFromC returnType with
      | none =>
          .error (.returned (invalid "fast-call return type is unsupported" returnType.toNat))
      | some nativeReturn =>
          mayThrow frame.reserve
          let types ← valueTypesFromC parameterTypes parameterCount.toNat
            "fast-call parameter type is unsupported"
          mayThrow frame.prepare
          pure (implementation, types, nativeReturn))
    fun (implementation, types, nativeReturn) =>
      match frame.native with
      -- The native builder may be left with half of its change: it is given up.
      | some exception => (.error (.thrown exception), { b with implementation := none })
      | none =>
          let (native, implementation) := implementation.createFastCall types nativeReturn
          let b := { b with implementation := some implementation }
          if native = kInvalidIndex ∨ (native + 1).toNat ≠ b.fastCalls.length + 1 then
            (.error (.returned
              ⟨.internal, "builder produced an inconsistent fast-call slot", 0⟩), b)
          else (.ok (.slot native),
            { b with fastCalls := b.fastCalls ++ [⟨types, nativeReturn⟩] })

/-- The checks of a fast call on the handle's own record. They yield the native builder and the
arguments to pass on. -/
def fastCallChecks (slot : BitVec 32) (arguments : Option (Nat → Value)) (argumentCount : BitVec 64)
    (output : Bool) : Except Failure (FunctionBuilder × List Value) := do
  let descriptor := b.fastCalls.getD slot.toNat {}
  let count := argumentCount.toNat
  let implementation ← b.requireBuilder frame (output ∧ slot.toNat < b.fastCalls.length)
    (invalid "fast-call slot or output is invalid" slot.toNat)
  require (¬ (count ≠ descriptor.parameterTypes.length ∨
      b.maximumIrArguments - b.callArguments < count ∨ (count ≠ 0 ∧ arguments.isNone)))
    (.returned (invalid "fast-call argument list is invalid" count))
  mayThrow frame.reserve
  let nativeArguments := (List.range count).map fun index =>
    (arguments.map (· index)).getD .invalid
  (nativeArguments.zip descriptor.parameterTypes).forM fun (argument, type) =>
    b.requireValue argument type
  b.prepareValue frame
  pure (implementation, nativeArguments)

/-- Appends a fast call to a declared target. -/
def fastCall (slot : BitVec 32) (arguments : Option (Nat → Value)) (argumentCount : BitVec 64)
    (output : Bool) : Answer :=
  b.checked (b.fastCallChecks frame slot arguments argumentCount output)
    fun (implementation, nativeArguments) =>
      match frame.native with
      | some exception => (.error (.thrown exception), { b with implementation := none })
      | none =>
          let (native, implementation) := implementation.fastCall slot nativeArguments
          { b with
            implementation := some implementation
            callArguments := b.callArguments + argumentCount.toNat }.finishValue native
              (b.fastCalls.getD slot.toNat {}).returnType

/-- Declares a patch cell. -/
def declarePatchCell (initialValue : Word) (kind : BitVec 32) (output : Bool) : Answer :=
  b.checked (do
      let implementation ← b.requireBuilder frame
        (output ∧ ¬ b.maximumPatchCells ≤ b.patchCells)
        (invalid "patch-cell declaration or output is invalid"
          (if frame.nullBuilder then 0 else b.patchCells))
      match patchKindFromC kind with
      | none => .error (.returned (invalid "patch-cell kind is unsupported" kind.toNat))
      | some nativeKind =>
          mayThrow frame.native
          pure (implementation.createPatchCell initialValue nativeKind))
    fun (native, implementation) =>
      let b := { b with implementation := some implementation }
      if native = kInvalidIndex ∨ native.toNat ≠ b.patchCells then
        (.error (.returned ⟨.internal, "builder produced an inconsistent patch-cell slot", 0⟩), b)
      else (.ok (.slot native), { b with patchCells := b.patchCells + 1 })

/-- Appends a read of a declared patch cell. -/
def loadPatchCell (slot : BitVec 32) (output : Bool) : Answer :=
  b.checked (do
      let implementation ← b.requireBuilder frame (output ∧ slot.toNat < b.patchCells)
        (invalid "patch-cell slot or output is invalid" slot.toNat)
      b.prepareValue frame
      pure implementation)
    fun implementation => b.makeValue frame (implementation.loadPatchCell slot) .word

/-- Names the returned value. -/
def setReturn (value : Value) : Answer :=
  b.checked (b.requireBuilder frame (value.index < b.valueTypes.length)
      (invalid "return value does not belong to the active builder" value.index))
    fun implementation =>
      match implementation.setReturn value with
      | .error status => (.error (.returned (.ofStatus status)), b)
      | .ok implementation => (.ok .none, { b with implementation := some implementation })

/-- Takes the function out of the handle, which is spent afterwards. -/
def finish (output : Bool) : Answer :=
  b.checked (b.requireBuilder frame output (invalid "builder or function output is null"))
    fun implementation =>
      let native := implementation.build
      let b := { b with implementation := none }
      match native.verify with
      | .error status => (.error (.returned (.ofStatus status)), b)
      | .ok () =>
          match frame.native with
          | some exception => (.error (.thrown exception), b)
          | none => (.ok (.function native), b)

end BuilderHandle

/-! ## Sequences of calls -/

/-- The calls on a handle. A flag `output` is false when the place for the result is null; an
array of the client is a function of the index, or null. -/
inductive BuilderCall
  | parameter (index : BitVec 64) (output : Bool)
  | wordConstant (bits : Word) (output : Bool)
  | float64ConstantBits (bits : Word) (output : Bool)
  | binary (operation : BitVec 32) (lhs rhs : Value) (output : Bool)
  | unary (operation : BitVec 32) (input : Value) (output : Bool)
  | guardNonzero (input : Value) (site : BitVec 64)
  | safepoint (site : BitVec 64)
  | declareFastCall (parameterTypes : Option (Nat → BitVec 32)) (parameterCount : BitVec 64)
      (returnType : BitVec 32) (output : Bool)
  | fastCall (slot : BitVec 32) (arguments : Option (Nat → Value)) (argumentCount : BitVec 64)
      (output : Bool)
  | declarePatchCell (initialValue : Word) (kind : BitVec 32) (output : Bool)
  | loadPatchCell (slot : BitVec 32) (output : Bool)
  | setReturn (value : Value)
  | finish (output : Bool)

namespace BuilderHandle

/-- The body of a call. -/
def perform (b : BuilderHandle) (frame : CallFrame) : BuilderCall → Answer
  | .parameter index output => b.parameter frame index output
  | .wordConstant bits output => b.wordConstant frame bits output
  | .float64ConstantBits bits output => b.float64ConstantBits frame bits output
  | .binary operation lhs rhs output => b.binary frame operation lhs rhs output
  | .unary operation input output => b.unary frame operation input output
  | .guardNonzero input site => b.guardNonzero frame input site
  | .safepoint site => b.safepoint frame site
  | .declareFastCall parameterTypes parameterCount returnType output =>
      b.declareFastCall frame parameterTypes parameterCount returnType output
  | .fastCall slot arguments argumentCount output =>
      b.fastCall frame slot arguments argumentCount output
  | .declarePatchCell initialValue kind output =>
      b.declarePatchCell frame initialValue kind output
  | .loadPatchCell slot output => b.loadPatchCell frame slot output
  | .setReturn value => b.setReturn frame value
  | .finish output => b.finish frame output

/-- A call: what it returns, with the error it writes when its output takes one, and the handle
after it. -/
def call (b : BuilderHandle) (frame : CallFrame) (c : BuilderCall) :
    Except (AbiStatusCode × Option AbiError) Output × BuilderHandle :=
  match frame.error with
  | .occupied => (.error (.invalidArgument, none), b)
  | slot =>
      match b.perform frame c with
      | (.ok output, b') => (.ok output, b')
      | (.error failure, b') =>
          let error := match failure with
            | .returned error => error
            | .thrown exception => blocked exception
          (.error (error.code, if slot = .empty then some error else none), b')

end BuilderHandle

end UniJit.Embedding
