import UniJit.Ir.FloorArithmetic
import UniJit.Jit.CodeBuffer
import UniJit.Lib.MachineCode

/-!
# Lowering shifts and floor divisions

What the sequences of the three back ends have to compute. The machines divide with truncation and
shift by the low bits of an amount; `floorDivideWord_eq` and `floorModuloWord_eq` say when a quotient
and a remainder are adjusted, and `shiftLeft_eq` says when a shift is, over the signs that the
sequences test.
-/

namespace UniJit.Jit

open UniJit.Ir UniJit.Lib UniJit.Lib.MachineCode

/-- The operations that every back end lowers to a sequence. -/
inductive IntegerOperation
  | floorDivide | floorModulo | shiftLeft
  deriving DecidableEq, Repr

/-- What an operation computes. -/
def IntegerOperation.evaluate : IntegerOperation → Word → Word → Word
  | .floorDivide => floorDivideWord
  | .floorModulo => floorModuloWord
  | .shiftLeft => Ir.shiftLeft

/-! ## The words -/

/-- The shift by an amount without its sign: from 64 on, nothing is left. -/
def shiftTowards (right : Bool) (value amount : Word) : Word :=
  if 64 ≤ amount.toNat then 0
  else if right then value >>> (amount.toNat % 64) else value <<< (amount.toNat % 64)

/-- Lua's shift goes to the side that the sign of the amount names. -/
lemma shiftLeft_eq (value amount : Word) :
    shiftLeft value amount =
      if amount.msb = true then shiftTowards true value (-amount)
      else shiftTowards false value amount := by
  unfold shiftLeft shiftTowards
  have hnegate : (0 : Word) - amount = -amount := BitVec.zero_sub amount
  simp only [msb_iff_toInt_neg, hnegate, if_true, Bool.false_eq_true, if_false]
  split_ifs with hsign hright hleft
  · rfl
  · rw [Nat.mod_eq_of_lt (not_le.mp hright)]
  · rfl
  · rw [Nat.mod_eq_of_lt (not_le.mp hleft)]

/-- A truncated quotient or remainder, adjusted where the signs of an inexact division differ. -/
def adjustTruncated (modulo : Bool) (quotient remainder divisor : Word) : Word :=
  if remainder ≠ 0 ∧ (remainder ^^^ divisor).msb = true then
    if modulo then remainder + divisor else quotient - 1
  else if modulo then remainder else quotient

/-- Lua's floor division or modulo. -/
def floorWord (modulo : Bool) (lhs rhs : Word) : Word :=
  if modulo then floorModuloWord lhs rhs else floorDivideWord lhs rhs

/-- The floor operations adjust what a machine with truncation computes. -/
lemma floorWord_eq {modulo : Bool} {x y : Word} (hy : y ≠ 0) :
    floorWord modulo x y = adjustTruncated modulo (x.sdiv y) (x.srem y) y := by
  rw [floorWord, floorModuloWord_eq hy, floorDivideWord_eq hy]
  cases modulo <;> rfl

/-- Division by zero gives zero. -/
lemma floorWord_zero (modulo : Bool) (x : Word) : floorWord modulo x 0 = 0 := by
  cases modulo <;> rfl

/-! ## The sequences -/

/-- A back end as its integer sequences see it. -/
structure IntegerTarget (I S R : Type) where
  isa : Isa I S
  registers : S → R → Word
  memory : S → BitVec 64 → Byte
  allocationRegisters : List R
  /-- Where a spilled left operand is loaded to and a spilled result is left. -/
  scratch0 : R
  /-- Where a spilled right operand is loaded to. -/
  scratch1 : R
  /-- The registers that a sequence may change; none is allocated. -/
  scratchRegisters : List R
  disjoint : ∀ r ∈ scratchRegisters, r ∉ allocationRegisters

variable {I S R : Type}

/-- The registers that an allocation leaves an operation with. -/
structure IntegerTarget.Assigns (t : IntegerTarget I S R) (target lhs rhs : R) : Prop where
  lhs : lhs ∈ t.scratch0 :: t.allocationRegisters
  rhs : rhs ∈ t.scratch1 :: t.allocationRegisters
  target : target ∈ t.scratch0 :: t.allocationRegisters

/-- What a state looks like once a sequence has put `result` into `target`. -/
structure IntegerTarget.Holds (t : IntegerTarget I S R) (s : S) (target : R) (result : Word)
    (s' : S) : Prop where
  result : t.registers s' target = result
  others : ∀ r, r ≠ target → r ∉ t.scratchRegisters → t.registers s' r = t.registers s r
  memory : t.memory s' = t.memory s

/-- Only scratch registers changed. -/
structure IntegerTarget.Undisturbed (t : IntegerTarget I S R) (s s' : S) : Prop where
  others : ∀ r, r ∉ t.scratchRegisters → t.registers s' r = t.registers s r
  memory : t.memory s' = t.memory s

lemma IntegerTarget.Undisturbed.refl (t : IntegerTarget I S R) (s : S) : t.Undisturbed s s :=
  ⟨fun _ _ => rfl, rfl⟩

/-- What an instruction does to the flags does not matter. -/
lemma IntegerTarget.Undisturbed.congr {t : IntegerTarget I S R} {s s₁ s₂ : S}
    (h : t.Undisturbed s s₁) (hregisters : t.registers s₂ = t.registers s₁)
    (hmemory : t.memory s₂ = t.memory s₁) : t.Undisturbed s s₂ :=
  ⟨hregisters ▸ h.others, hmemory ▸ h.memory⟩

/-- The emitter appends code to any buffer that computes `operation` exactly: a machine that starts
at its first byte reaches its end, so it does not trap, and the target holds the result. -/
def IntegerTarget.LowersExactly (t : IntegerTarget I S R) (lower : Emit (Except Status Unit))
    (target lhs rhs : R) (operation : Word → Word → Word) : Prop :=
  ∀ front back s, ∃ code, lower.run front = (.ok (), front ++ code) ∧
    ∃ n s', t.isa.run (front ++ code ++ back) n (front.length, s) =
        some (front.length + code.length, s') ∧
      t.Holds s target (operation (t.registers s lhs) (t.registers s rhs)) s'

/-- An emitter of a block that completes. -/
lemma IntegerTarget.lowersExactly_of_block {t : IntegerTarget I S R}
    {lower : Emit (Except Status Unit)} {target lhs rhs : R} {operation : Word → Word → Word}
    (b : Block t.isa) (hrun : ∀ front, lower.run front = (.ok (), front ++ b.bytes))
    (hcompletes : ∀ s, b.Completes 0 s
      (t.Holds s target (operation (t.registers s lhs) (t.registers s rhs)))) :
    t.LowersExactly lower target lhs rhs operation := by
  intro front back s
  refine ⟨b.bytes, hrun front, ?_⟩
  exact hcompletes s front back

end UniJit.Jit
