import Mathlib.Logic.Relation
import UniJit.Lua.AcceptedCode
import UniJit.Lua.FloatTranslation

/-!
# The Lua machine on numbers

The machine for functions that compute with floats. A register holds an integer or a float, and
arithmetic on two integers stays with integers, unless it is a division; all other arithmetic
converts its operands to floats. A numeric `for` whose start or step is a float is a float loop: it
looks at its step first, and then it keeps the limit, the step and the index as floats.

As in the machine on integers, what is not listed has no step here; among that is a loop whose start
and step are integers.
-/

namespace UniJit.Lua

open UniJit.Ir

/-- A number of Lua. -/
inductive Number
  | integer (value : Word)
  | float (bits : Word)
  deriving DecidableEq, Repr

namespace Number

/-- The kind of a number. -/
def kind : Number → NumericKind
  | .integer _ => .integer
  | .float _ => .float64

/-- A number as a `double`. -/
def toDouble (ofInteger : Word → Word) : Number → Word
  | .integer value => ofInteger value
  | .float bits => bits

/-- `OP_UNM`: the sign bit of a float is flipped. -/
def negate : Number → Number
  | .integer value => .integer (0 - value)
  | .float bits => .float (bits ^^^ (1 <<< 63))

end Number

/-- A constant that is a number. -/
def Proto.number (p : Proto) (index : Nat) : Option Number :=
  match p.k[index]? with
  | some (.integer value) => some (.integer value)
  | some (.float bits) => some (.float bits)
  | _ => none

/-- Arithmetic that is done on floats even if both operands are integers. -/
def OpCode.dividesFloats (opcode : OpCode) : Bool := opcode == .div || opcode == .divK

/-- What an arithmetic instruction computes on floats. -/
def OpCode.floatArithmetic (float : FloatUnit) (opcode : OpCode) (x y : Word) : Word :=
  match opcode with
  | .addI | .addK | .add => float.add x y
  | .subK | .sub => float.subtract x y
  | .mulK | .mul => float.multiply x y
  | _ => float.divide x y

namespace NumberVm

/-- The registers of a call; one that does not hold a number is `none`. -/
abbrev Registers := Nat → Option Number

/-- The program counter and the registers. -/
structure State where
  pc : Nat
  registers : Registers

/-- How a call ends. -/
inductive Outcome
  | returned (value : Number)
  /-- The step of a numeric `for` is zero. -/
  | stepIsZero
  deriving DecidableEq, Repr

/-- A step goes on or ends. -/
inductive Transition
  | next (s : State)
  | done (o : Outcome)

/-- The registers at the start of a call whose arguments are floats. -/
def start (args : List Word) : State := ⟨0, fun r => (args[r]?).map .float⟩

/-- A loop is left before its first iteration. -/
def forSkips (float : FloatUnit) (init limit step : Word) : Bool :=
  if float.lessThan 0 step then float.lessThan limit init else float.lessThan init limit

/-- The next index of a loop is not beyond its limit. -/
def forContinues (float : FloatUnit) (index limit step : Word) : Bool :=
  if float.lessThan 0 step then float.lessEqual index limit else float.lessEqual limit index

section machine

variable (float : FloatUnit) (ofInteger : Word → Word) (p : Proto) (s : State)

/-- Write a register and go on. -/
def write (r : Nat) (n : Number) (pc : Nat) : Transition :=
  .next ⟨pc, Function.update s.registers r (some n)⟩

/-- An arithmetic instruction on its operands. -/
def compute (opcode : OpCode) (x y : Number) : Number :=
  let onFloats :=
    Number.float (opcode.floatArithmetic float (x.toDouble ofInteger) (y.toDouble ofInteger))
  match x, y with
  | .integer m, .integer n =>
      if opcode.dividesFloats then onFloats else .integer (opcode.arithmetic m n)
  | _, _ => onFloats

/-- The operands of an arithmetic instruction. -/
def operands (i : Instruction) : Option (Number × Number) :=
  match i.opcode with
  | .addI => do pure (← s.registers i.B, .integer (BitVec.ofInt 64 i.sC))
  | .addK | .subK | .mulK | .divK => do pure (← s.registers i.B, ← p.number i.C)
  | .add | .sub | .mul | .div => do pure (← s.registers i.B, ← s.registers i.C)
  | _ => none

/-- The preparation of a float loop. -/
def forPrep (i : Instruction) : Option Transition := do
  let init ← s.registers i.A
  let limit ← s.registers (i.A + 1)
  let step ← s.registers (i.A + 2)
  if init.kind = .integer ∧ step.kind = .integer then none
  else
    let init := init.toDouble ofInteger
    let limit := limit.toDouble ofInteger
    let step := step.toDouble ofInteger
    if float.equal step 0 then pure (.done .stepIsZero)
    else if forSkips float init limit step then
      pure (.next { s with pc := s.pc + i.Bx + 2 })
    else
      let registers := Function.update s.registers i.A (some (.float limit))
      let registers := Function.update registers (i.A + 1) (some (.float step))
      pure (.next ⟨s.pc + 1, Function.update registers (i.A + 2) (some (.float init))⟩)

/-- The end of an iteration of a float loop. -/
def forLoop (i : Instruction) : Option Transition :=
  match s.registers i.A, s.registers (i.A + 1), s.registers (i.A + 2) with
  | some (.float limit), some (.float step), some (.float index) =>
      let index := float.add index step
      if forContinues float index limit step then
        some (.next ⟨s.pc + 1 - i.Bx,
          Function.update s.registers (i.A + 2) (some (.float index))⟩)
      else some (.next { s with pc := s.pc + 1 })
  | _, _, _ => none

/-- One step of the machine. -/
def step : Option Transition :=
  let i := p.fetch s.pc
  match i.opcode with
  | .move => do pure (write s i.A (← s.registers i.B) (s.pc + 1))
  | .loadI => pure (write s i.A (.integer (BitVec.ofInt 64 i.sBx)) (s.pc + 1))
  | .loadF => pure (write s i.A (.float (ofInteger (BitVec.ofInt 64 i.sBx))) (s.pc + 1))
  | .loadK => do pure (write s i.A (← p.number i.Bx) (s.pc + 1))
  | .addI | .addK | .subK | .mulK | .divK | .add | .sub | .mul | .div => do
      let (x, y) ← operands p s i
      pure (write s i.A (compute float ofInteger i.opcode x y) (s.pc + 2))
  | .unm => do pure (write s i.A (← s.registers i.B).negate (s.pc + 1))
  | .forPrep => forPrep float ofInteger s i
  | .forLoop => forLoop float s i
  | .ret1 => do pure (.done (.returned (← s.registers i.A)))
  | .ret => if i.B = 2 ∧ i.k = false then
      do pure (.done (.returned (← s.registers i.A))) else none
  | _ => none

/-- At most `fuel` steps of a call. -/
def run : Nat → State → Option Outcome
  | 0, _ => none
  | fuel + 1, s =>
      match step float ofInteger p s with
      | some (.next s') => run fuel s'
      | some (.done o) => some o
      | none => none

/-- A call ends with an outcome. -/
def Ends (o : Outcome) : Prop := ∃ fuel, run float ofInteger p fuel s = some o

/-- A step of an instruction that writes a register; the call of its metamethod is skipped. -/
structure Writes (s s' : State) : Prop where
  writes : (p.fetch s.pc).opcode.writesFloatDestination = true
  fallback : (p.fetch s.pc).width = 2 → (p.fetch (s.pc + 1)).opcode.callsMetamethod = true
  step : step float ofInteger p s = some (.next s')

/-- Such steps lead from one state to another. -/
def Leads : State → State → Prop := Relation.ReflTransGen (Writes float ofInteger p)

end machine

variable {float : FloatUnit} {ofInteger : Word → Word} {p : Proto} {s s' : State} {o : Outcome}

/-! ## Runs -/

/-- A run ends as it ends after its first step. -/
lemma ends_next (h : step float ofInteger p s = some (.next s')) :
    Ends float ofInteger p s o ↔ Ends float ofInteger p s' o := by
  constructor
  · rintro ⟨fuel, hrun⟩
    rcases fuel with - | fuel
    · cases hrun
    · rw [run, h] at hrun
      exact ⟨fuel, hrun⟩
  · rintro ⟨fuel, hrun⟩
    exact ⟨fuel + 1, by rw [run, h]; exact hrun⟩

/-- A step that ends is the end of the run. -/
lemma ends_done {o' : Outcome} (h : step float ofInteger p s = some (.done o')) :
    Ends float ofInteger p s o ↔ o = o' := by
  constructor
  · rintro ⟨fuel, hrun⟩
    rcases fuel with - | fuel
    · cases hrun
    · rw [run, h] at hrun
      cases hrun
      rfl
  · rintro rfl
    exact ⟨1, by rw [run, h]⟩

/-- What follows a lead decides how a call ends. -/
lemma Leads.ends (h : Leads float ofInteger p s s') :
    Ends float ofInteger p s o ↔ Ends float ofInteger p s' o := by
  induction h using Relation.ReflTransGen.head_induction_on with
  | refl => exact Iff.rfl
  | head hwrites _ ih => exact (ends_next hwrites.step).trans ih

/-- An outcome that is not reached at once from a set of states that no step leaves is not reached
at all. -/
lemma not_ends_of_invariant {I : State → Prop}
    (hnext : ∀ s s', I s → step float ofInteger p s = some (.next s') → I s')
    (hdone : ∀ s, I s → step float ofInteger p s ≠ some (.done o)) (hs : I s) :
    ¬Ends float ofInteger p s o := by
  rintro ⟨fuel, hrun⟩
  induction fuel generalizing s with
  | zero => cases hrun
  | succ fuel ih =>
      rcases hstep : step float ofInteger p s with - | (next | outcome)
      all_goals rw [run, hstep] at hrun
      · cases hrun
      · exact ih (hnext s next hs hstep) hrun
      · cases hrun
        exact hdone s hs hstep

/-! ## Steps -/

/-- Arithmetic that is done on floats. -/
lemma compute_of_float {opcode : OpCode} {x y : Number}
    (h : opcode.dividesFloats = true ∨ HasFloatOperand x.kind y.kind) :
    compute float ofInteger opcode x y =
      .float (opcode.floatArithmetic float (x.toDouble ofInteger) (y.toDouble ofInteger)) := by
  rcases x with x | x <;> rcases y with y | y
  all_goals simp_all [compute, Number.kind, Number.toDouble]

/-- Arithmetic on numbers writes its result and skips the fallback. -/
lemma step_of_operands {x y : Number} (h : operands p s (p.fetch s.pc) = some (x, y)) :
    step float ofInteger p s = some (write s (p.fetch s.pc).A
      (compute float ofInteger (p.fetch s.pc).opcode x y) (s.pc + 2)) := by
  simp only [step]
  rcases hopcode : (p.fetch s.pc).opcode
  case addI | addK | subK | mulK | divK | add | sub | mul | div =>
    rw [h]
    rfl
  all_goals
    rw [operands, hopcode] at h
    cases h

/-- Only a preparation fails for its step. -/
lemma forPrep_of_stepIsZero (h : step float ofInteger p s = some (.done .stepIsZero)) :
    (p.fetch s.pc).opcode = .forPrep := by
  simp only [step] at h
  rcases hopcode : (p.fetch s.pc).opcode
  all_goals simp only [hopcode] at h
  case forPrep => rfl
  case loadI | loadF => cases h
  case move | loadK | unm | addI | addK | subK | mulK | divK | add | sub | mul | div | ret1 =>
    obtain ⟨n, -, ht⟩ := Option.bind_eq_some_iff.mp h
    cases ht
  case ret =>
    split_ifs at h
    obtain ⟨n, -, ht⟩ := Option.bind_eq_some_iff.mp h
    cases ht
  case forLoop =>
    unfold forLoop at h
    split at h
    · dsimp only at h
      split_ifs at h
      all_goals cases h
    · cases h
  all_goals cases h

/-- An instruction that writes a register goes on behind itself. -/
lemma write_of_step (hwrites : (p.fetch s.pc).opcode.writesFloatDestination = true) {t : Transition}
    (h : step float ofInteger p s = some t) :
    ∃ n, t = write s (p.fetch s.pc).A n (s.pc + (p.fetch s.pc).width) := by
  simp only [step, Instruction.width] at h ⊢
  rcases hopcode : (p.fetch s.pc).opcode
  all_goals simp only [hopcode] at hwrites h ⊢
  case loadI | loadF => exact ⟨_, (Option.some.inj h).symm⟩
  case move | loadK | unm =>
    obtain ⟨n, -, ht⟩ := Option.bind_eq_some_iff.mp h
    exact ⟨_, (Option.some.inj ht).symm⟩
  case addI | addK | subK | mulK | divK | add | sub | mul | div =>
    obtain ⟨⟨x, y⟩, -, ht⟩ := Option.bind_eq_some_iff.mp h
    exact ⟨_, (Option.some.inj ht).symm⟩
  all_goals cases hwrites

end NumberVm

end UniJit.Lua
