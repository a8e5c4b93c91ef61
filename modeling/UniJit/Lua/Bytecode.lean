import Mathlib.Logic.Function.Basic
import UniJit.Ir.Vector

/-!
# Lua bytecode and the machine that runs it

A prototype is what the Lua compiler makes of a function: its number of parameters, its constants
and its instructions. An `Instruction` holds what the accessors of the bytecode (`GETARG_A` and so
on) read from an instruction word.

`Vm.step` is one step of the Lua virtual machine as far as it works on integers: arithmetic wraps,
division and modulo round towards minus infinity and fail on a zero divisor, shifts by 64 and more
give zero, and a numeric `for` counts its iterations in advance, unsigned. An instruction that
would read something else than an integer, or that is not listed, has no step here. The arithmetic
instructions are followed by a call of a metamethod, which the machine skips for integers.
-/

namespace UniJit.Lua

open UniJit.Ir

/-- The opcodes of the virtual machine that the translators name. -/
inductive OpCode
  | move | loadI | loadF | loadK
  | addI | addK | subK | mulK | modK | divK | idivK | bandK | borK | bxorK | shlI | shrI
  | add | sub | mul | mod | div | idiv | band | bor | bxor | shl | shr
  | mmbin | mmbinI | mmbinK
  | unm | bnot
  | close | jmp
  | eq | lt | le | eqK | eqI | ltI | leI | gtI | geI
  | ret | ret1
  | forLoop | forPrep
  | other
  deriving DecidableEq, Repr

/-- An instruction, as its accessors read it. -/
structure Instruction where
  opcode : OpCode := .other
  /-- The opcode as a number. -/
  code : Nat := 0
  A : Nat := 0
  B : Nat := 0
  C : Nat := 0
  k : Bool := false
  Bx : Nat := 0
  sB : Int := 0
  sC : Int := 0
  sBx : Int := 0
  sJ : Int := 0
  deriving DecidableEq, Repr, Inhabited

/-- A constant of a prototype. -/
inductive Constant
  | integer (value : Word)
  | float (bits : Word)
  /-- A constant that is not a number. -/
  | other
  deriving DecidableEq, Repr

/-- A function prototype, as far as it is read. -/
structure Proto where
  numparams : Nat := 0
  isVararg : Bool := false
  maxstacksize : Nat := 0
  k : List Constant := []
  code : List Instruction := []
  /-- The number of functions that are defined inside. -/
  sizep : Nat := 0
  deriving DecidableEq, Repr

namespace Proto

variable (p : Proto)

/-- The number of instructions. -/
def sizecode : Nat := p.code.length

/-- The instruction at a position; beyond the end there is none that could be run. -/
def fetch (pc : Nat) : Instruction := p.code.getD pc default

/-- An integer constant. -/
def integerConstant (index : Nat) : Option Word :=
  match p.k[index]? with
  | some (.integer value) => some value
  | _ => none

end Proto

/-- `writes_destination` of the integer translator: the instruction writes register `A`. -/
def OpCode.writesDestination : OpCode → Bool
  | .move | .loadI | .loadK | .addI | .addK | .subK | .mulK | .modK | .idivK | .bandK | .borK
  | .bxorK | .shlI | .shrI | .add | .sub | .mul | .mod | .idiv | .band | .bor | .bxor | .shl
  | .shr | .unm | .bnot => true
  | _ => false

/-- The registers that an instruction reads. -/
def Instruction.reads (i : Instruction) : List Nat :=
  match i.opcode with
  | .move | .addI | .addK | .subK | .mulK | .modK | .idivK | .bandK | .borK | .bxorK | .shlI
  | .shrI | .unm | .bnot => [i.B]
  | .add | .sub | .mul | .mod | .idiv | .band | .bor | .bxor | .shl | .shr => [i.B, i.C]
  | .eq | .lt | .le => [i.A, i.B]
  | .eqK | .eqI | .ltI | .leI | .gtI | .geI => [i.A]
  | .ret | .ret1 => [i.A]
  | _ => []

/-- An instruction that is not known to leave a register alone. -/
def Instruction.mayWrite (i : Instruction) (r : Nat) : Bool :=
  match i.opcode with
  | .mmbin | .mmbinI | .mmbinK | .close | .jmp | .eq | .lt | .le | .eqK | .eqI | .ltI | .leI
  | .gtI | .geI | .ret | .ret1 => false
  | .forLoop | .forPrep | .other => true
  | _ => r == i.A

/-- The registers of a numeric `for`, from `base` on, belong to it: no instruction of the body names
the two internal ones, and after the loop all three are written before they are read. -/
def Proto.Reserves (p : Proto) (preparation loop base : Nat) : Prop :=
  (∀ pc < loop, preparation < pc → ∀ r ∈ (p.fetch pc).reads, r ≠ base ∧ r ≠ base + 1) ∧
  ∀ pc < p.sizecode, loop < pc → ∀ r ∈ (p.fetch pc).reads, base ≤ r ∧ r ≤ base + 2 →
    ∃ earlier < pc, loop < earlier ∧ (p.fetch earlier).mayWrite r

/-- Whether a loop's registers are reserved can be computed. -/
instance (p : Proto) (preparation loop base : Nat) : Decidable (p.Reserves preparation loop base) := by
  unfold Proto.Reserves
  infer_instance

/-- What the Lua compiler guarantees of the prototypes that it makes. Registers are allocated as a
stack, and the internal variables of a loop have no names. -/
def Proto.Stock (p : Proto) : Prop :=
  ∀ pc < p.sizecode, (p.fetch pc).opcode = .forPrep →
    p.Reserves pc (pc + (p.fetch pc).Bx + 1) (p.fetch pc).A

/-- Whether a prototype is the stock compiler's can be computed. -/
instance (p : Proto) : Decidable p.Stock := by
  unfold Proto.Stock
  infer_instance

/-! ## Integer arithmetic -/

/-- `luaV_shiftl`: a negative amount shifts to the right. -/
def luaVShiftl (x y : Word) : Word :=
  if y.toInt < 0 then
    if y.toInt ≤ -64 then 0 else x >>> (0 - y).toNat
  else if 64 ≤ y.toInt then 0 else x <<< y.toNat

/-- `luaV_idiv` for a divisor that is not zero. -/
def luaVIdiv (m n : Word) : Word :=
  if (n + 1).toNat ≤ 1 then 0 - m
  else
    let q := m.sdiv n
    if (m ^^^ n).toInt < 0 ∧ m.srem n ≠ 0 then q - 1 else q

/-- `luaV_mod` for a divisor that is not zero. -/
def luaVMod (m n : Word) : Word :=
  if (n + 1).toNat ≤ 1 then 0
  else
    let r := m.srem n
    if r ≠ 0 ∧ (r ^^^ n).toInt < 0 then r + n else r

/-- What an arithmetic instruction computes. -/
def OpCode.arithmetic (opcode : OpCode) (x y : Word) : Word :=
  match opcode with
  | .addI | .addK | .add => x + y
  | .subK | .sub => x - y
  | .mulK | .mul => x * y
  | .modK | .mod => luaVMod x y
  | .idivK | .idiv => luaVIdiv x y
  | .bandK | .band => x &&& y
  | .borK | .bor => x ||| y
  | .bxorK | .bxor => x ^^^ y
  | .shlI | .shl => luaVShiftl x y
  | .shrI | .shr => luaVShiftl x (0 - y)
  | _ => 0

/-- The instructions that divide. -/
def OpCode.divides (opcode : OpCode) : Bool :=
  opcode == .modK || opcode == .idivK || opcode == .mod || opcode == .idiv

/-- The condition of a comparison. -/
def OpCode.compares (opcode : OpCode) (x y : Word) : Bool :=
  match opcode with
  | .lt | .ltI => x.toInt < y.toInt
  | .le | .leI => x.toInt ≤ y.toInt
  | .gtI => x.toInt > y.toInt
  | .geI => x.toInt ≥ y.toInt
  | _ => x = y

/-- The number of further iterations of a loop that is entered. -/
def forCount (init limit step : Word) : Word :=
  if 0 < step.toInt then (limit - init).udiv step
  else (init - limit).udiv (0 - (step + 1) + 1)

/-- A loop is left before its first iteration. -/
def forSkips (init limit step : Word) : Bool :=
  if 0 < step.toInt then limit.toInt < init.toInt else init.toInt < limit.toInt

/-! ## The machine -/

/-- The registers of a call; one that does not hold an integer is `none`. -/
abbrev Registers := Nat → Option Word

namespace Vm

/-- The program counter and the registers. -/
structure State where
  pc : Nat
  registers : Registers

/-- How a call ends. -/
inductive Outcome
  | returned (value : Word)
  /-- The instruction at a position divides by zero. -/
  | divisionByZero (pc : Nat)
  /-- The step of a numeric `for` is zero. -/
  | stepIsZero
  deriving DecidableEq, Repr

/-- A step goes on or ends. -/
inductive Transition
  | next (s : State)
  | done (o : Outcome)

/-- The registers at the start of a call. -/
def start (args : List Word) : State := ⟨0, fun r => args[r]?⟩

variable (p : Proto) (s : State)

/-- Write a register and go on. -/
def write (r : Nat) (value : Word) (pc : Nat) : Transition :=
  .next ⟨pc, Function.update s.registers r (some value)⟩

/-- The operands of an arithmetic instruction. -/
def operands (i : Instruction) : Option (Word × Word) :=
  match i.opcode with
  | .addI | .shrI => do pure (← s.registers i.B, BitVec.ofInt 64 i.sC)
  | .shlI => do pure (BitVec.ofInt 64 i.sC, ← s.registers i.B)
  | .addK | .subK | .mulK | .modK | .idivK | .bandK | .borK | .bxorK => do
      pure (← s.registers i.B, ← p.integerConstant i.C)
  | .add | .sub | .mul | .mod | .idiv | .band | .bor | .bxor | .shl | .shr => do
      pure (← s.registers i.B, ← s.registers i.C)
  | .eq | .lt | .le => do pure (← s.registers i.A, ← s.registers i.B)
  | .eqK => do pure (← s.registers i.A, ← p.integerConstant i.B)
  | .eqI | .ltI | .leI | .gtI | .geI => do pure (← s.registers i.A, BitVec.ofInt 64 i.sB)
  | _ => none

/-- An arithmetic instruction, which skips the call of its metamethod. -/
def arithmetic (i : Instruction) : Option Transition := do
  let (x, y) ← operands p s i
  if i.opcode.divides ∧ y = 0 then pure (.done (.divisionByZero s.pc))
  else pure (write s i.A (i.opcode.arithmetic x y) (s.pc + 2))

/-- A jump relative to the instruction after `pc`. -/
def jumpTarget (pc : Nat) (offset : Int) : Nat := ((pc : Int) + 1 + offset).toNat

/-- A comparison: the jump after it is taken when the condition is as expected. -/
def comparison (i : Instruction) : Option Transition := do
  let (x, y) ← operands p s i
  if i.opcode.compares x y ≠ i.k then pure (.next { s with pc := s.pc + 2 })
  else pure (.next { s with pc := jumpTarget (s.pc + 1) (p.fetch (s.pc + 1)).sJ })

/-- The preparation of a numeric `for`. -/
def forPrep (i : Instruction) : Option Transition := do
  let init ← s.registers i.A
  let limit ← s.registers (i.A + 1)
  let step ← s.registers (i.A + 2)
  if step = 0 then pure (.done .stepIsZero)
  else if forSkips init limit step then pure (.next { s with pc := s.pc + i.Bx + 2 })
  else
    let registers := Function.update s.registers i.A (some (forCount init limit step))
    let registers := Function.update registers (i.A + 1) (some step)
    pure (.next ⟨s.pc + 1, Function.update registers (i.A + 2) (some init)⟩)

/-- The end of an iteration of a numeric `for`. -/
def forLoop (i : Instruction) : Option Transition := do
  let count ← s.registers i.A
  let step ← s.registers (i.A + 1)
  let index ← s.registers (i.A + 2)
  if count = 0 then pure (.next { s with pc := s.pc + 1 })
  else
    let registers := Function.update s.registers i.A (some (count - 1))
    pure (.next ⟨s.pc + 1 - i.Bx, Function.update registers (i.A + 2) (some (index + step))⟩)

/-- One step of the machine. -/
def step : Option Transition :=
  let i := p.fetch s.pc
  match i.opcode with
  | .move => do pure (write s i.A (← s.registers i.B) (s.pc + 1))
  | .loadI => pure (write s i.A (BitVec.ofInt 64 i.sBx) (s.pc + 1))
  | .loadK => do pure (write s i.A (← p.integerConstant i.Bx) (s.pc + 1))
  | .addI | .addK | .subK | .mulK | .modK | .idivK | .bandK | .borK | .bxorK | .shlI | .shrI
  | .add | .sub | .mul | .mod | .idiv | .band | .bor | .bxor | .shl | .shr => arithmetic p s i
  | .unm => do pure (write s i.A (0 - (← s.registers i.B)) (s.pc + 1))
  | .bnot => do pure (write s i.A (~~~(← s.registers i.B)) (s.pc + 1))
  | .jmp => pure (.next { s with pc := jumpTarget s.pc i.sJ })
  | .eq | .lt | .le | .eqK | .eqI | .ltI | .leI | .gtI | .geI => comparison p s i
  | .forPrep => forPrep s i
  | .forLoop => forLoop s i
  | .ret1 => do pure (.done (.returned (← s.registers i.A)))
  | .ret => if i.B = 2 ∧ i.k = false then
      do pure (.done (.returned (← s.registers i.A))) else none
  | _ => none

/-- At most `fuel` steps of a call. -/
def run : Nat → State → Option Outcome
  | 0, _ => none
  | fuel + 1, s =>
      match step p s with
      | some (.next s') => run fuel s'
      | some (.done o) => some o
      | none => none

/-- A call ends with an outcome. -/
def Ends (o : Outcome) : Prop := ∃ fuel, run p fuel s = some o

variable {p s}

/-- A run that ends later ends. -/
lemma Ends.next {s' : State} {o : Outcome} (h : step p s = some (.next s')) (hs : Ends p s' o) :
    Ends p s o := by
  obtain ⟨fuel, hrun⟩ := hs
  exact ⟨fuel + 1, by rw [run, h]; exact hrun⟩

lemma Ends.done {o : Outcome} (h : step p s = some (.done o)) : Ends p s o :=
  ⟨1, by rw [run, h]⟩

end Vm

end UniJit.Lua
