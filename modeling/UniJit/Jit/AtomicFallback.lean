import UniJit.Ir.AtomicCells

/-!
# The atomic fallback

The helper that compiled code calls for an atomic operation that its instructions cannot do. It
works on values of the width of the access: directly, with the operations of the compiler, or under
a lock, with a load and a store of its own. Only RISC-V takes the lock, and only for one or two
bytes.
-/

namespace UniJit.Jit

open UniJit.Ir UniJit.Lib UniJit.Runtime

/-! ## The codes -/

/-- The number of arguments of the fallback. -/
def kAtomicFallbackArgumentCount : Nat := 5

/-- The operations in the order of `AtomicFallbackOperation`. -/
def fallbackOperations : List AtomicOpcode :=
  [.exchange, .compareExchange, .fetchAdd, .fetchAnd, .fetchOr, .fetchXor, .load, .store]

/-- What a code is cast to; a code beyond the enumerators matches no case. -/
def fallbackOperationOf (code : Word) : Option AtomicOpcode := fallbackOperations[code.toNat]?

/-- The code of an operation. -/
def fallbackCode (o : AtomicOpcode) : Word := BitVec.ofNat 64 (fallbackOperations.idxOf o)

lemma fallbackOperationOf_code (o : AtomicOpcode) :
    fallbackOperationOf (fallbackCode o) = some o := by
  cases o <;> rfl

/-! ## The helper -/

/-- A value of `n` bytes, in the byte order of the host. -/
def loadNative (host : Host) (n : Nat) (address : Nat) (m : Machine) : BitVec (8 * n) :=
  ofLeBytes (8 * n) (memoryOrder host.littleEndian (m.readBytes address n))

/-- Stores a cell in the host's byte order. -/
def storeNative (host : Host) (n : Nat) (address : Nat) (value : BitVec (8 * n)) :
    StateM Machine Unit :=
  modify fun m => m.writeBytes address (memoryOrder host.littleEndian (leBytes n value))

/-- The atomics of the compiler. A failed exchange reports the value in memory, a successful one
the value that was expected. -/
def executeWidth (host : Host) (n : Nat) (address : Nat) (operation : Option AtomicOpcode)
    (operandBits desiredBits : Word) : StateM Machine Word := do
  let operand := operandBits.setWidth (8 * n)
  let desired := desiredBits.setWidth (8 * n)
  let target := loadNative host n address (← get)
  let store := storeNative host n address
  let observed : BitVec (8 * n) ← match operation with
    | none => pure 0
    | some .load => pure target
    | some .store => do store operand; pure operand
    | some .exchange => do store operand; pure target
    | some .compareExchange =>
        if target = operand then do store desired; pure operand else pure target
    | some .fetchAdd => do store (target + operand); pure target
    | some .fetchAnd => do store (target &&& operand); pure target
    | some .fetchOr => do store (target ||| operand); pure target
    | some .fetchXor => do store (target ^^^ operand); pure target
  pure (observed.setWidth 64)

/-- A load and a store under a lock. -/
def executeLockedWidth (host : Host) (n : Nat) (address : Nat) (operation : Option AtomicOpcode)
    (operandBits desiredBits : Word) : StateM Machine Word := do
  let operand := operandBits.setWidth (8 * n)
  let desired := desiredBits.setWidth (8 * n)
  let observed := loadNative host n address (← get)
  let (replacement, write) : BitVec (8 * n) × Bool := match operation with
    | none => (observed, false)
    | some .load => (observed, false)
    | some .store => (operand, true)
    | some .exchange => (operand, true)
    | some .compareExchange => (desired, observed == operand)
    | some .fetchAdd => (observed + operand, true)
    | some .fetchAnd => (observed &&& operand, true)
    | some .fetchOr => (observed ||| operand, true)
    | some .fetchXor => (observed ^^^ operand, true)
  if write then storeNative host n address replacement
  pure (observed.setWidth 64)

/-- The helper; there may be no arguments. -/
def executeAtomicFallback (host : Host) (lockSubwords : Bool) (arguments : Option (List Word)) :
    StateM Machine Word :=
  match arguments with
  | some [address, code, width, operand, desired] => do
      let operation := fallbackOperationOf code
      let execute (n : Nat) (locked : Bool) : StateM Machine Word := do
        let result ←
          if locked then executeLockedWidth host n address.toNat operation operand desired
          else executeWidth host n address.toNat operation operand desired
        pure (if operation = some .store then operand else result)
      if width = 1 then execute 1 lockSubwords
      else if width = 2 then execute 2 lockSubwords
      else if width = 4 then execute 4 false
      else if width = 8 then execute 8 false
      else pure 0
  | _ => pure 0

/-! ## On cells -/

section cells

variable {host : Host} (hlittle : host.littleEndian = true) (n : Nat) (address : Nat) (m : Machine)
  (o : AtomicOpcode) (value desired : Word)

include hlittle

/-- On a little-endian host the fallback loads the cell. -/
lemma loadNative_eq : loadNative host n address m = cellAt n m address := by
  rw [loadNative, memoryOrder, if_pos hlittle]
  rfl

/-- On a little-endian host the fallback stores the cell. -/
lemma storeNative_eq (cell : BitVec (8 * n)) :
    (storeNative host n address cell).run m = pure ((), setCellAt n m address cell) := by
  rw [storeNative, memoryOrder, if_pos hlittle]
  rfl

/-- What the direct variant hands out: for a store, the truncated operand. -/
lemma executeWidth_eq :
    (executeWidth host n address (some o) value desired).run m =
      pure
        (if o = .store then (value.setWidth (8 * n)).setWidth 64
          else (cellAt n m address).setWidth 64,
        atomicMachine n o m address value desired) := by
  have hload := loadNative_eq hlittle n address m
  have hstore := storeNative_eq hlittle n address m
  have hkept := setCellAt_cellAt n m address
  cases o with
  | compareExchange =>
      rw [atomicMachine_compareExchange]
      by_cases hequal : cellAt n m address = value.setWidth (8 * n)
      · simp [executeWidth, hload, hstore, hequal]
      · simp [executeWidth, hload, hequal]
  | load => simp [executeWidth, hload, atomicMachine, AtomicOpcode.replace, hkept]
  | store => simp [executeWidth, hstore, atomicMachine, AtomicOpcode.replace]
  | exchange => simp [executeWidth, hload, hstore, atomicMachine, AtomicOpcode.replace]
  | fetchAdd => simp [executeWidth, hload, hstore, atomicMachine, AtomicOpcode.replace]
  | fetchAnd => simp [executeWidth, hload, hstore, atomicMachine, AtomicOpcode.replace]
  | fetchOr => simp [executeWidth, hload, hstore, atomicMachine, AtomicOpcode.replace]
  | fetchXor => simp [executeWidth, hload, hstore, atomicMachine, AtomicOpcode.replace]

/-- The locked variant hands out the old value, for a store as well. -/
lemma executeLockedWidth_eq :
    (executeLockedWidth host n address (some o) value desired).run m =
      pure ((cellAt n m address).setWidth 64, atomicMachine n o m address value desired) := by
  have hload := loadNative_eq hlittle n address m
  have hstore := storeNative_eq hlittle n address m
  have hkept := setCellAt_cellAt n m address
  cases o with
  | compareExchange =>
      rw [atomicMachine_compareExchange]
      by_cases hequal : cellAt n m address = value.setWidth (8 * n)
      · simp [executeLockedWidth, hload, hstore, hequal]
      · simp [executeLockedWidth, hload, hequal]
  | load => simp [executeLockedWidth, hload, atomicMachine, AtomicOpcode.replace, hkept]
  | store => simp [executeLockedWidth, hload, hstore, atomicMachine, AtomicOpcode.replace]
  | exchange => simp [executeLockedWidth, hload, hstore, atomicMachine, AtomicOpcode.replace]
  | fetchAdd => simp [executeLockedWidth, hload, hstore, atomicMachine, AtomicOpcode.replace]
  | fetchAnd => simp [executeLockedWidth, hload, hstore, atomicMachine, AtomicOpcode.replace]
  | fetchOr => simp [executeLockedWidth, hload, hstore, atomicMachine, AtomicOpcode.replace]
  | fetchXor => simp [executeLockedWidth, hload, hstore, atomicMachine, AtomicOpcode.replace]

/-- **Both variants of the fallback work on cells**: the helper hands out the word that the
interpreter does, also for a store, whose operand it hands out in full. -/
lemma executeAtomicFallback_eq (lockSubwords : Bool) {width : Nat} (hwidth : width ∈ [1, 2, 4, 8])
    (address : Nat) (haddress : address < 2 ^ 64) :
    (executeAtomicFallback host lockSubwords (some
      [BitVec.ofNat 64 address, fallbackCode o, BitVec.ofNat 64 width, value, desired])).run m =
        pure (atomicResult o value (cellAt width m address),
          atomicMachine width o m address value desired) := by
  have hword : (BitVec.ofNat 64 address).toNat = address := by
    rw [BitVec.toNat_ofNat, Nat.mod_eq_of_lt haddress]
  have hexecute : ∀ (n : Nat) (locked : Bool), StateT.run (do
      let result ←
        if locked then executeLockedWidth host n address (some o) value desired
        else executeWidth host n address (some o) value desired
      pure (if some o = some AtomicOpcode.store then value else result)) m =
        (pure (atomicResult o value (cellAt n m address),
          atomicMachine n o m address value desired) : Id _) := by
    intro n locked
    have hdirect := executeWidth_eq hlittle n address m o value desired
    have hlocked := executeLockedWidth_eq hlittle n address m o value desired
    by_cases hstore : o = .store
    · subst hstore
      cases locked with
      | true => simp [hlocked, atomicResult]
      | false => simp [hdirect, atomicResult]
    · cases locked with
      | true => simp [hlocked, atomicResult, hstore]
      | false => simp [hdirect, atomicResult, hstore]
  simp only [List.mem_cons, List.not_mem_nil, or_false] at hwidth
  simp only [executeAtomicFallback, fallbackOperationOf_code, hword]
  rcases hwidth with rfl | rfl | rfl | rfl
  · exact hexecute 1 lockSubwords
  · exact hexecute 2 lockSubwords
  · exact hexecute 4 false
  · exact hexecute 8 false

end cells

end UniJit.Jit
