import Mathlib.Init

/-!
# Status values

The result code, message and location that every fallible operation of the library reports.
-/

namespace UniJit

/-- The library's result codes. -/
inductive StatusCode
  | ok
  | invalidArgument
  | invalidIr
  | unsupportedArchitecture
  | resourceExhausted
  | codeGenerationFailed
  | memoryProtectionFailed
  | executionInterrupted
  | runtimeExit
  | cancelled
  | deadlineExceeded
  | unavailable
  deriving DecidableEq, Repr

/-- A result code with its message and location. A successful operation is `Except.ok` in this
development, so a `Status` value carries what a failed one reports. -/
structure Status where
  code : StatusCode
  message : String
  location : Nat := 0
  deriving DecidableEq, Repr

end UniJit
