import UniJit.Lib.Successes
import UniJit.Lua.LoopTranslation

/-!
# Code that the translator accepts

What a successful translation says about the bytecode. A translated range is a row of instructions
that write one register each, from registers that have a value, and it ends at its end or with a
return (`Straight`). An accepted loop consists of such rows: the code before it, the parts of its
body, and the code after it (`AcceptedLoop`).
-/

namespace UniJit.Lua

open UniJit.Ir UniJit.Lib

/-! ## Instructions -/

/-- The number of positions that an instruction and the metamethod call behind it take. -/
def Instruction.width (i : Instruction) : Nat :=
  match i.opcode with
  | .move | .loadI | .loadF | .loadK | .unm | .bnot => 1
  | _ => 2

/-- The constant of an instruction, if it has one, is an integer. -/
def Instruction.HasConstant (p : Proto) (i : Instruction) : Prop :=
  match i.opcode with
  | .loadK => (p.integerConstant i.Bx).isSome
  | .addK | .subK | .mulK | .modK | .idivK | .bandK | .borK | .bxorK =>
      (p.integerConstant i.C).isSome
  | _ => True

/-- The call of a metamethod. -/
def OpCode.callsMetamethod (opcode : OpCode) : Bool :=
  opcode == .mmbin || opcode == .mmbinI || opcode == .mmbinK

/-- Beyond the end there is nothing but the default. -/
lemma Proto.lt_sizecode {p : Proto} {pc : Nat} (h : (p.fetch pc).opcode ≠ .other) :
    pc < p.sizecode := by
  by_contra hge
  apply h
  rw [fetch, List.getD, List.getElem?_eq_none (not_lt.mp hge)]
  rfl

/-- The site of a guard leads back to its instruction. -/
lemma Proto.mod_sizecode {p : Proto} {pc : Nat} (h : pc < p.sizecode) (ordinal : Nat) :
    (ordinal * p.sizecode + pc) % p.sizecode = pc := by
  rw [Nat.mul_add_mod_self_right, Nat.mod_eq_of_lt h]

/-- What the translator asks of an instruction that writes a register. -/
structure Accepts (p : Proto) (values : List Value) (pc stop : Nat) : Prop where
  writes : (p.fetch pc).opcode.writesDestination
  destination : (p.fetch pc).A < values.length
  reads : ∀ r ∈ (p.fetch pc).reads, validRegister values r
  constant : (p.fetch pc).HasConstant p
  fits : pc + (p.fetch pc).width ≤ stop
  fallback : (p.fetch pc).width = 2 → (p.fetch (pc + 1)).opcode.callsMetamethod

section instructions

variable {B : Type} [ScalarBuilder B] {p : Proto} {pc stop : Nat} {values values' : List Value}
  {next : Nat} {e e' : Emitter B}

omit [ScalarBuilder B] in
/-- A check passes exactly when its condition holds. -/
lemma check_eq_ok {c : Prop} [Decidable c] {status : Status} {u : Unit} :
    (check c status : Emit B Unit) e = .ok u e' ↔ c ∧ e = e' := by
  unfold check
  rw [ite_run_eq_ok, pure_run_eq_ok]
  simp [throw_run_ne_ok]

omit [ScalarBuilder B] in
/-- An attempt succeeds exactly when the builder's call does. -/
lemma attempt_eq_ok {call : B → Except Status B} {u : Unit} :
    attempt call e = .ok u e' ↔ ∃ b, call e.builder = .ok b ∧ { e with builder := b } = e' := by
  unfold attempt
  cases call e.builder with
  | ok b => simp
  | error status => simp

/-- The outcome of a case of the translator. -/
def Outcome (p : Proto) (pc : Nat) (values values' : List Value) (next : Nat) : Prop :=
  next = pc + (p.fetch pc).width ∧ ∃ v, values' = values.set (p.fetch pc).A v

/-- What an accepted instruction on two registers shows of the bytecode. -/
lemma translateRegisters_spec {operandText fallbackText : String}
    (h : translateRegisters p pc stop values operandText fallbackText e = .ok (values', next) e') :
    (p.fetch pc).A < values.length ∧ validRegister values (p.fetch pc).B ∧
      validRegister values (p.fetch pc).C ∧ pc + 1 < stop ∧
      (p.fetch (pc + 1)).opcode = .mmbin ∧ next = pc + 2 ∧
      ∃ v, values' = values.set (p.fetch pc).A v := by
  simp only [translateRegisters, checkFallback, bind_run_eq_ok, check_eq_ok, pure_run_eq_ok] at h
  obtain ⟨-, _, ⟨⟨hdestination, hlhs, hrhs⟩, -⟩, v, _, -, -, _, ⟨⟨hfits, hfallback⟩, -⟩, hdone, -⟩ :=
    h
  cases hdone
  exact ⟨hdestination, hlhs, hrhs, hfits, hfallback, rfl, v, rfl⟩

/-- What an accepted instruction on a register and a constant shows of the bytecode. -/
lemma translateConstant_spec {operandText integerText fallbackText : String}
    (h : translateConstant p pc stop values operandText integerText fallbackText e =
      .ok (values', next) e') :
    (p.fetch pc).A < values.length ∧ validRegister values (p.fetch pc).B ∧
      (p.integerConstant (p.fetch pc).C).isSome ∧ pc + 1 < stop ∧
      (p.fetch (pc + 1)).opcode = .mmbinK ∧ next = pc + 2 ∧
      ∃ v, values' = values.set (p.fetch pc).A v := by
  simp only [translateConstant, checkFallback, bind_run_eq_ok, check_eq_ok] at h
  obtain ⟨-, _, ⟨⟨hdestination, hlhs, -⟩, -⟩, hrest⟩ := h
  rcases hconstant : p.integerConstant (p.fetch pc).C with - | value
  · rw [hconstant] at hrest
    exact absurd hrest throw_run_ne_ok
  · rw [hconstant] at hrest
    simp only [bind_run_eq_ok, check_eq_ok, pure_run_eq_ok] at hrest
    obtain ⟨-, _, -, v, _, -, -, _, ⟨⟨hfits, hfallback⟩, -⟩, hdone, -⟩ := hrest
    cases hdone
    exact ⟨hdestination, hlhs, rfl, hfits, hfallback, rfl, v, rfl⟩

/-- What an accepted instruction on a register and an immediate shows of the bytecode. -/
lemma translateImmediate_spec {operandText fallbackText : String}
    (h : translateImmediate p pc stop values operandText fallbackText e = .ok (values', next) e') :
    (p.fetch pc).A < values.length ∧ validRegister values (p.fetch pc).B ∧ pc + 1 < stop ∧
      (p.fetch (pc + 1)).opcode = .mmbinI ∧ next = pc + 2 ∧
      ∃ v, values' = values.set (p.fetch pc).A v := by
  simp only [translateImmediate, checkFallback, bind_run_eq_ok, check_eq_ok] at h
  obtain ⟨-, _, ⟨⟨hdestination, hlhs⟩, -⟩, hrest⟩ := h
  generalize (p.fetch pc).opcode = opcode at hrest
  cases opcode
  all_goals
    simp only [bind_run_eq_ok, check_eq_ok, pure_run_eq_ok] at hrest
    obtain ⟨_, _, -, v, _, -, -, _, ⟨⟨hfits, hfallback⟩, -⟩, hdone, -⟩ := hrest
    cases hdone
    exact ⟨hdestination, hlhs, hfits, hfallback, rfl, v, rfl⟩

/-- What an accepted unary instruction shows of the bytecode. -/
lemma translateUnary_spec {opcode : UnaryOpcode}
    (h : translateUnary p pc values opcode e = .ok (values', next) e') :
    (p.fetch pc).A < values.length ∧ validRegister values (p.fetch pc).B ∧ next = pc + 1 ∧
      ∃ v, values' = values.set (p.fetch pc).A v := by
  simp only [translateUnary, bind_run_eq_ok, check_eq_ok, pure_run_eq_ok] at h
  obtain ⟨-, _, ⟨⟨hdestination, hlhs⟩, -⟩, v, _, -, hdone, -⟩ := h
  cases hdone
  exact ⟨hdestination, hlhs, rfl, v, rfl⟩

/-- An instruction that the translator takes writes one register and is followed by the next one. -/
lemma translateInstruction_spec {unsupported : String} (hpc : pc < stop)
    (h : translateInstruction p unsupported pc stop values e = .ok (values', next) e') :
    Accepts p values pc stop ∧ Outcome p pc values values' next := by
  have hone : ∀ v, (p.fetch pc).width = 1 → (p.fetch pc).opcode.writesDestination →
      (p.fetch pc).A < values.length → (∀ r ∈ (p.fetch pc).reads, validRegister values r) →
      (p.fetch pc).HasConstant p → values' = values.set (p.fetch pc).A v → next = pc + 1 →
      Accepts p values pc stop ∧ Outcome p pc values values' next := by
    intro v hwidth hwrites hdestination hreads hconstant hvalues hnext
    exact ⟨⟨hwrites, hdestination, hreads, hconstant, by omega, by omega⟩, by omega, v, hvalues⟩
  have htwo : ∀ v, (p.fetch pc).width = 2 → (p.fetch pc).opcode.writesDestination →
      (p.fetch pc).A < values.length → (∀ r ∈ (p.fetch pc).reads, validRegister values r) →
      (p.fetch pc).HasConstant p → pc + 1 < stop →
      (p.fetch (pc + 1)).opcode.callsMetamethod → values' = values.set (p.fetch pc).A v →
      next = pc + 2 → Accepts p values pc stop ∧ Outcome p pc values values' next := by
    intro v hwidth hwrites hdestination hreads hconstant hfits hfallback hvalues hnext
    exact ⟨⟨hwrites, hdestination, hreads, hconstant, by omega, fun _ => hfallback⟩, by omega, v,
      hvalues⟩
  unfold translateInstruction at h
  rcases hopcode : (p.fetch pc).opcode
  all_goals simp only [hopcode] at h
  all_goals
    simp only [Instruction.width, Instruction.reads, Instruction.HasConstant,
      OpCode.writesDestination, hopcode, List.mem_cons, List.not_mem_nil, or_false, forall_eq,
      forall_eq_or_imp, Nat.reduceEqDiff, false_imp_iff, forall_const] at hone htwo
  case move =>
    simp only [bind_run_eq_ok, check_eq_ok, pure_run_eq_ok] at h
    obtain ⟨-, _, ⟨⟨hdestination, hsource⟩, -⟩, hdone, -⟩ := h
    cases hdone
    exact hone _ hdestination hsource rfl rfl
  case loadI =>
    simp only [bind_run_eq_ok, check_eq_ok, pure_run_eq_ok] at h
    obtain ⟨-, _, ⟨hdestination, -⟩, v, _, -, hdone, -⟩ := h
    cases hdone
    exact hone v hdestination rfl rfl
  case loadK =>
    simp only [bind_run_eq_ok, check_eq_ok] at h
    obtain ⟨-, _, ⟨⟨hdestination, -⟩, -⟩, hrest⟩ := h
    rcases hconstant : p.integerConstant (p.fetch pc).Bx with - | value
    · rw [hconstant] at hrest
      exact absurd hrest throw_run_ne_ok
    · rw [hconstant] at hrest
      simp only [bind_run_eq_ok, pure_run_eq_ok] at hrest
      obtain ⟨v, _, -, hdone, -⟩ := hrest
      cases hdone
      exact hone v hdestination (by rw [hconstant]; rfl) rfl rfl
  case unm | bnot =>
    obtain ⟨hdestination, hsource, hnext, v, hvalues⟩ := translateUnary_spec h
    exact hone v hdestination hsource hvalues hnext
  case addI | shlI | shrI =>
    obtain ⟨hdestination, hsource, hfits, hfallback, hnext, v, hvalues⟩ :=
      translateImmediate_spec h
    exact htwo v hdestination hsource hfits (by rw [hfallback]; rfl) hvalues hnext
  case addK | subK | mulK | modK | idivK | bandK | borK | bxorK =>
    obtain ⟨hdestination, hsource, hconstant, hfits, hfallback, hnext, v, hvalues⟩ :=
      translateConstant_spec h
    exact htwo v hdestination hsource hconstant hfits (by rw [hfallback]; rfl) hvalues hnext
  case add | sub | mul | mod | idiv | band | bor | bxor | shl | shr =>
    obtain ⟨hdestination, hlhs, hrhs, hfits, hfallback, hnext, v, hvalues⟩ :=
      translateRegisters_spec h
    exact htwo v hdestination ⟨hlhs, hrhs⟩ hfits (by rw [hfallback]; rfl) hvalues hnext
  all_goals exact absurd h throw_run_ne_ok

end instructions

/-! ## Ranges -/

/-- A row of instructions from `pc` to `stop`, with the values of the registers before and after
it, and whether it ends with a return. None of them writes a protected register. -/
inductive Straight (p : Proto) (protectedBase : Option Nat) (stop : Nat) :
    Nat → List Value → List Value → Bool → Prop
  | done {values : List Value} : Straight p protectedBase stop stop values values false
  | return {pc : Nat} {values : List Value} (hpc : pc < stop)
      (hreturn : (p.fetch pc).opcode = .ret1 ∨
        (p.fetch pc).opcode = .ret ∧ (p.fetch pc).B = 2 ∧ (p.fetch pc).k = false)
      (hvalue : validRegister values (p.fetch pc).A) :
      Straight p protectedBase stop pc values values true
  | write {pc : Nat} {values values' : List Value} {returned : Bool} (v : Value)
      (haccepts : Accepts p values pc stop)
      (hprotected : ∀ base ∈ protectedBase, (p.fetch pc).A < base ∨ base + 2 < (p.fetch pc).A)
      (hrest : Straight p protectedBase stop (pc + (p.fetch pc).width)
        (values.set (p.fetch pc).A v) values' returned) :
      Straight p protectedBase stop pc values values' returned

/-- An instruction takes one or two words. -/
lemma Instruction.width_eq (i : Instruction) : i.width = 1 ∨ i.width = 2 := by
  unfold width
  split <;> simp

/-- An instruction takes some word. -/
lemma Instruction.width_pos (i : Instruction) : 0 < i.width := by
  have hwidth := i.width_eq
  omega

section ranges

variable {B : Type} [ScalarBuilder B] {p : Proto} {rules : RangeRules} {stop : Nat}

/-- What an accepted return shows of the bytecode. -/
lemma translateReturn_spec {pc : Nat} {values values' : List Value} {c : Prop} [Decidable c]
    {message : String} {returned : Bool} {e e' : Emitter B}
    (h : translateReturn p pc values c message e = .ok (values', returned) e') :
    c ∧ validRegister values (p.fetch pc).A ∧ values' = values ∧ returned = true := by
  simp only [translateReturn, bind_run_eq_ok, check_eq_ok, pure_run_eq_ok] at h
  obtain ⟨-, _, ⟨⟨hc, hvalue⟩, -⟩, -, _, -, hdone, -⟩ := h
  cases hdone
  exact ⟨hc, hvalue, rfl, rfl⟩

/-- A range that is translated is straight-line code. -/
lemma straight_of_translateRange {fuel pc : Nat} {values values' : List Value} {returned : Bool}
    {e e' : Emitter B} (hpc : pc ≤ stop) (hfuel : stop ≤ pc + fuel)
    (h : translateRange p rules stop fuel pc values e = .ok (values', returned) e') :
    Straight p rules.protectedStateBase stop pc values values' returned ∧
      (returned = true → rules.allowReturn = true) := by
  induction fuel generalizing pc values e with
  | zero =>
      obtain rfl : pc = stop := by omega
      obtain ⟨hdone, -⟩ := pure_run_eq_ok.mp h
      cases hdone
      exact ⟨.done, by simp⟩
  | succ fuel ih =>
      rw [translateRange] at h
      split_ifs at h with hend
      · obtain rfl : pc = stop := by omega
        obtain ⟨hdone, -⟩ := pure_run_eq_ok.mp h
        cases hdone
        exact ⟨.done, by simp⟩
      have hlt : pc < stop := by omega
      simp only [bind_run_eq_ok, check_eq_ok] at h
      obtain ⟨-, _, ⟨hprotected, -⟩, h⟩ := h
      rcases ite_run_eq_ok.mp h with ⟨hreturn, h⟩ | ⟨-, h⟩
      · obtain ⟨hallow, hvalue, rfl, rfl⟩ := translateReturn_spec h
        exact ⟨.return hlt (.inl hreturn) hvalue, fun _ => hallow⟩
      rcases ite_run_eq_ok.mp h with ⟨hreturn, h⟩ | ⟨-, h⟩
      · obtain ⟨⟨hallow, hcount, hclose⟩, hvalue, rfl, rfl⟩ := translateReturn_spec h
        exact ⟨.return hlt (.inr ⟨hreturn, hcount, hclose⟩) hvalue, fun _ => hallow⟩
      · obtain ⟨⟨middle, next⟩, _, hinstruction, hrest⟩ := bind_run_eq_ok.mp h
        obtain ⟨haccepts, rfl, v, rfl⟩ := translateInstruction_spec hlt hinstruction
        have hwidth := (p.fetch pc).width_pos
        have hfits := haccepts.fits
        obtain ⟨hstraight, hallow⟩ := ih hfits (by omega) hrest
        refine ⟨.write v haccepts (fun base hbase => ?_) hstraight, hallow⟩
        have hfree := hprotected base hbase
        rw [not_and, not_and] at hfree
        have hbelow := hfree haccepts.writes
        omega

/-- A translated range is a straight one. -/
lemma straight_of_translate {start : Nat} {values values' : List Value} {returned : Bool}
    {e e' : Emitter B} (hstart : start ≤ stop)
    (h : translate p rules start stop values e = .ok (values', returned) e') :
    Straight p rules.protectedStateBase stop start values values' returned ∧
      (returned = true → rules.allowReturn = true) :=
  straight_of_translateRange hstart (by omega) h

end ranges

/-! ## Loops -/

/-- Only carried registers have a value. -/
def Carries (carried : List Nat) (values : List Value) : Prop :=
  ∀ r, (values.getD r .invalid).valid → r ∈ carried

/-- The values at the start of a part of the loop are carried ones. -/
def StraightFrom (p : Proto) (carried : List Nat) (protectedBase : Option Nat) (start stop : Nat)
    (returned : Bool) : Prop :=
  ∃ values values', Carries carried values ∧
    Straight p protectedBase stop start values values' returned

/-- The operands of the condition have a value. -/
def ComparisonAccepted (p : Proto) (pc : Nat) (values : List Value) : Prop :=
  validRegister values (p.fetch pc).A ∧
    match (p.fetch pc).opcode with
    | .eq | .lt | .le => validRegister values (p.fetch pc).B
    | .eqK => (p.integerConstant (p.fetch pc).B).isSome
    | _ => True

/-- The parts of a body with a condition. -/
structure GuardedAccepted (p : Proto) (l : LoopSite) (plan : GuardedBodyPlan) : Prop where
  before : ∃ values values', Carries l.carried values ∧
    Straight p (some l.stateBase) plan.comparisonPc (l.preparationPc + 1) values values' false ∧
    ComparisonAccepted p plan.comparisonPc values'
  action : match plan.kind with
    | .break => True
    | .return => StraightFrom p l.carried (some l.stateBase) plan.actionBegin plan.actionEnd true
    | _ => StraightFrom p l.carried (some l.stateBase) plan.actionBegin plan.actionEnd false
  alternate : plan.kind = .conditionalElse →
    StraightFrom p l.carried (some l.stateBase) plan.alternateBegin plan.continuationBegin false
  continuation : StraightFrom p l.carried (some l.stateBase) plan.continuationBegin l.loopPc false

/-- The body of a loop is accepted. -/
def BodyAccepted (p : Proto) (l : LoopSite) : Option GuardedBodyPlan → Prop
  | none => StraightFrom p l.carried (some l.stateBase) (l.preparationPc + 1) l.loopPc false
  | some plan => GuardedAccepted p l plan

/-- What a successful translation says about a loop and its surroundings. -/
structure AcceptedLoop (p : Proto) (l : LoopSite) (guarded : Option GuardedBodyPlan) : Prop where
  preparation : findPreparation p = .ok l.preparationPc
  base : (p.fetch l.preparationPc).A = l.stateBase
  loop : l.loopPc = l.preparationPc + (p.fetch l.preparationPc).Bx + 1
  latch : l.loopPc < p.sizecode ∧ (p.fetch l.loopPc).opcode = .forLoop ∧
    (p.fetch l.loopPc).Bx = l.loopPc - l.preparationPc
  state : l.stateBase + 2 < p.maxstacksize ∧ (p.fetch l.loopPc).A = l.stateBase
  guard : findGuardedBody p l.preparationPc l.loopPc = .ok guarded
  setup : ∃ values, (∀ r, (values.getD r Value.invalid).valid → r < p.numparams) ∧
    Straight p none l.preparationPc 0 values l.registers false
  controls : validRegister l.registers l.stateBase ∧ validRegister l.registers (l.stateBase + 1) ∧
    validRegister l.registers (l.stateBase + 2)
  known : (analyzeLoopControls p l.preparationPc).start ≠ .unknown ∧
    (analyzeLoopControls p l.preparationPc).step ≠ .unknown ∧
    (analyzeLoopControls p l.preparationPc).step ≠ .constant 0
  carried : ∀ r ∈ l.carried, (l.registers.getD r .invalid).valid
  body : BodyAccepted p l guarded
  exit : StraightFrom p l.carried none (l.loopPc + 1) p.sizecode true

section loops

variable {p : Proto} {l : LoopSite} {e e' : Emitter ControlFlowBuilder}

/-- The registers of a block are those it carries. -/
lemma blockRegisters_spec {carried : List Nat} {block : Block} {values : List Value}
    (h : blockRegisters p carried block e = .ok values e') : Carries carried values := by
  cases h
  intro r hvalid
  by_contra hnot
  have hnone : carried.idxOf? r = none := List.idxOf?_eq_none_iff.mpr hnot
  by_cases hr : r < p.maxstacksize
  · simp [List.getD, List.getElem?_map, List.getElem?_range hr, hnone, Value.valid,
      Value.invalid] at hvalid
  · rw [List.getD, List.getElem?_eq_none (by simpa using hr)] at hvalid
    simp [Value.valid, Value.invalid] at hvalid

/-- A translated range of a block starts from carried values. -/
lemma straightFrom_of_translate {block : Block} {rules : RangeRules} {start stop : Nat}
    {values values' : List Value} {returned : Bool} {e₁ e₂ e₃ : Emitter ControlFlowBuilder}
    (hblock : blockRegisters p l.carried block e = .ok values e₁) (hstart : start ≤ stop)
    (h : translate p rules start stop values e₂ = .ok (values', returned) e₃) :
    StraightFrom p l.carried rules.protectedStateBase start stop returned :=
  ⟨values, values', blockRegisters_spec hblock, (straight_of_translate hstart h).1⟩

/-- Where returns are not allowed, a range goes on at its end. -/
lemma returned_eq_false {B : Type} [ScalarBuilder B] {rules : RangeRules} {start stop : Nat}
    {values values' : List Value} {returned : Bool} {e₁ e₂ : Emitter B}
    (hrules : rules.allowReturn = false) (hstart : start ≤ stop)
    (h : translate p rules start stop values e₁ = .ok (values', returned) e₂) :
    returned = false := by
  rcases hreturned : returned with - | -
  · rfl
  · have hallow := (straight_of_translate hstart h).2 hreturned
    rw [hrules] at hallow
    cases hallow

/-- Behind an emitted exit there is straight-line code that returns. -/
lemma emitExit_spec {exit : Block} {message : String} (hloop : l.loopPc < p.sizecode)
    (h : emitExit p l exit message e = .ok () e') :
    StraightFrom p l.carried none (l.loopPc + 1) p.sizecode true := by
  simp only [emitExit, bind_run_eq_ok, check_eq_ok] at h
  obtain ⟨-, _, -, values, _, hblock, ⟨values', returned⟩, _, htranslate, hreturned, -⟩ := h
  dsimp only at hreturned
  subst hreturned
  exact straightFrom_of_translate hblock hloop htranslate

/-- An emitted comparison is one the translator accepts. -/
lemma comparisonValue_spec {pc : Nat} {values : List Value} {v : Value}
    (h : comparisonValue p pc values e = .ok v e') : ComparisonAccepted p pc values := by
  simp only [comparisonValue, bind_run_eq_ok, check_eq_ok] at h
  obtain ⟨-, _, ⟨hlhs, -⟩, hrest⟩ := h
  refine ⟨hlhs, ?_⟩
  generalize (p.fetch pc).opcode = opcode at hrest ⊢
  cases opcode
  case eq | lt | le =>
    obtain ⟨_, _, hcheck, -⟩ := bind_run_eq_ok.mp hrest
    exact (check_eq_ok.mp hcheck).1
  case eqK =>
    rcases hconstant : p.integerConstant (p.fetch pc).B with - | value
    · rw [hconstant] at hrest
      obtain ⟨_, _, hthrow, -⟩ := bind_run_eq_ok.mp hrest
      exact absurd hthrow throw_run_ne_ok
    · rfl
  all_goals trivial

/-- Where the parts of a guarded body are. -/
structure PlanBounds (p : Proto) (loopPc : Nat) (plan : GuardedBodyPlan) : Prop where
  jump : (p.fetch (plan.comparisonPc + 1)).opcode = .jmp
  action : plan.actionBegin = plan.comparisonPc + 2
  actionEnd : plan.actionBegin ≤ plan.actionEnd ∧ plan.actionEnd ≤ plan.alternateBegin
  inside : plan.actionBegin < plan.alternateBegin ∧ plan.continuationBegin ≤ loopPc
  alternate : plan.alternateBegin ≤ plan.continuationBegin
  target : jumpAt p (plan.comparisonPc + 1) = plan.alternateBegin
  kind : match plan.kind with
    | .break => (p.fetch plan.actionBegin).opcode = .jmp ∧ jumpAt p plan.actionBegin = loopPc + 1 ∧
        plan.continuationBegin = plan.alternateBegin
    | .return => ((p.fetch plan.actionBegin).opcode = .ret1 ∨
          (p.fetch plan.actionBegin).opcode = .ret) ∧
        plan.actionEnd = plan.actionBegin + 1 ∧ plan.continuationBegin = plan.alternateBegin
    | .conditionalElse => (p.fetch plan.actionBegin).opcode ≠ .jmp ∧
        (p.fetch plan.actionBegin).opcode ≠ .ret1 ∧ (p.fetch plan.actionBegin).opcode ≠ .ret ∧
        (p.fetch plan.actionEnd).opcode = .jmp ∧ jumpAt p plan.actionEnd = plan.continuationBegin ∧
        plan.alternateBegin = plan.actionEnd + 1
    | .conditionalBody => (p.fetch plan.actionBegin).opcode ≠ .jmp ∧
        (p.fetch plan.actionBegin).opcode ≠ .ret1 ∧ (p.fetch plan.actionBegin).opcode ≠ .ret ∧
        plan.actionEnd = plan.alternateBegin ∧ plan.continuationBegin = plan.alternateBegin

/-- A planned body begins at its comparison and keeps inside the loop. -/
lemma planGuardedBody_spec {loopPc pc : Nat} {plan : GuardedBodyPlan}
    (h : planGuardedBody p loopPc pc = .ok plan) :
    plan.comparisonPc = pc ∧ PlanBounds p loopPc plan := by
  simp only [planGuardedBody, require_bind_eq_ok] at h
  obtain ⟨⟨-, hjump⟩, ⟨-, hbegin, hend⟩, h⟩ := h
  set target := (jumpAt p (pc + 1)).toNat with htarget
  have hcast : jumpAt p (pc + 1) = target := by
    rw [htarget, Int.toNat_of_nonneg]
    exact le_trans (Int.natCast_nonneg _) hbegin.le
  have hlt : pc + 2 < target := by omega
  have hle : target ≤ loopPc := by omega
  split_ifs at h with hbreak hreturn helse
  · obtain ⟨hout, h⟩ := require_bind_eq_ok.mp h
    obtain ⟨_, -, h⟩ := bind_eq_ok.mp h
    obtain rfl := pure_eq_ok.mp h
    exact ⟨rfl, hjump, rfl, ⟨hlt.le, le_rfl⟩, ⟨hlt, hle⟩, le_rfl, hcast, hbreak, hout, rfl⟩
  · simp only [require_bind_eq_ok, pure_eq_ok] at h
    obtain ⟨hone, rfl⟩ := h
    exact ⟨rfl, hjump, rfl, ⟨hlt.le, le_rfl⟩, ⟨hlt, hle⟩, le_rfl, hcast, hreturn, hone, rfl⟩
  · simp only [require_bind_eq_ok, pure_eq_ok] at h
    obtain ⟨⟨hmerge, hmergeEnd⟩, rfl⟩ := h
    obtain ⟨hret1, hret⟩ := not_or.mp hreturn
    have hend' : target - 1 ≤ target := Nat.sub_le _ _
    have hnext : target = target - 1 + 1 := by omega
    have hmergeCast : jumpAt p (target - 1) = (jumpAt p (target - 1)).toNat := by omega
    have hmergeLe : (jumpAt p (target - 1)).toNat ≤ loopPc := by omega
    have hmergeBehind : target ≤ (jumpAt p (target - 1)).toNat := by omega
    exact ⟨rfl, hjump, rfl, ⟨helse.1, hend'⟩, ⟨hlt, hmergeLe⟩, hmergeBehind, hcast, hbreak, hret1,
      hret, helse.2, hmergeCast, hnext⟩
  · obtain ⟨hret1, hret⟩ := not_or.mp hreturn
    cases h
    exact ⟨rfl, hjump, rfl, ⟨hlt.le, le_rfl⟩, ⟨hlt, hle⟩, le_rfl, hcast, hbreak, hret1, hret, rfl,
      rfl⟩

section guarded

variable {plan : GuardedBodyPlan} (hplan : PlanBounds p l.loopPc plan)
include hplan

/-- An emitted action is a break, or straight-line code of its kind. -/
lemma emitAction_spec {action merge exit : Block}
    (h : emitAction p l plan action merge exit e = .ok () e') : match plan.kind with
      | .break => True
      | .return => StraightFrom p l.carried (some l.stateBase) plan.actionBegin plan.actionEnd true
      | _ => StraightFrom p l.carried (some l.stateBase) plan.actionBegin plan.actionEnd false := by
  simp only [emitAction, bind_run_eq_ok] at h
  obtain ⟨_, _, -, values, _, hblock, _, _, -, h⟩ := h
  have hstart := hplan.actionEnd.1
  rcases hkind : plan.kind
  all_goals simp only [hkind, bind_run_eq_ok, check_eq_ok] at h ⊢
  case conditionalBody | conditionalElse =>
    obtain ⟨⟨values', returned⟩, _, htranslate, -⟩ := h
    obtain rfl := returned_eq_false rfl hstart htranslate
    exact straightFrom_of_translate hblock hstart htranslate
  case «return» =>
    obtain ⟨⟨values', returned⟩, _, htranslate, hreturned, -⟩ := h
    dsimp only at hreturned
    subst hreturned
    exact straightFrom_of_translate hblock hstart htranslate

/-- An emitted alternative is straight-line code. -/
lemma emitAlternate_spec {alternate merge : Block}
    (h : emitAlternate p l plan alternate merge e = .ok () e')
    (hkind : plan.kind = .conditionalElse) :
    StraightFrom p l.carried (some l.stateBase) plan.alternateBegin plan.continuationBegin
      false := by
  simp only [emitAlternate, bind_run_eq_ok, hkind, if_true] at h
  obtain ⟨_, _, -, values, _, hblock, _, _, -, ⟨values', returned⟩, _, htranslate, -⟩ := h
  obtain rfl := returned_eq_false rfl hplan.alternate htranslate
  exact straightFrom_of_translate hblock hplan.alternate htranslate

/-- Behind an emitted merge the body goes on as straight-line code. -/
lemma emitMerge_spec {merge continuation exit : Block} {checkRemaining : Bool}
    (h : emitMerge p l plan merge continuation exit checkRemaining e = .ok () e') :
    StraightFrom p l.carried (some l.stateBase) plan.continuationBegin l.loopPc false := by
  simp only [emitMerge, bind_run_eq_ok] at h
  obtain ⟨-, _, -, values, _, hblock, ⟨values', returned⟩, _, htranslate, -⟩ := h
  obtain rfl := returned_eq_false rfl hplan.inside.2 htranslate
  exact straightFrom_of_translate hblock hplan.inside.2 htranslate

/-- An emitted iteration of a guarded body has the shape of its plan. -/
lemma emitIteration_spec {exit iteration continuation : Block} {checkRemaining : Bool}
    (hbefore : l.preparationPc + 1 ≤ plan.comparisonPc)
    (h : emitIteration p l plan exit iteration continuation checkRemaining e = .ok () e') :
    GuardedAccepted p l plan := by
  simp only [emitIteration, bind_run_eq_ok] at h
  obtain ⟨_, _, -, values, _, hblock, ⟨values', returned⟩, _, htranslate, relation, _, hrelation, _,
    _, -, _, _, -, _, _, -, _, _, -, _, _, -, _, _, -, h⟩ := h
  have hparts : ∃ e₁ e₂ e₃ action alternate merge,
      emitAction p l plan action merge exit e₁ = .ok () e₂ ∧
      emitAlternate p l plan alternate merge e₂ = .ok () e₃ ∧
      emitMerge p l plan merge continuation exit checkRemaining e₃ = .ok () e' := by
    rcases ite_run_eq_ok.mp h with ⟨-, h⟩ | ⟨-, h⟩
    all_goals
      simp only [bind_run_eq_ok] at h
      obtain ⟨_, _, -, _, _, haction, _, _, halternate, hmerge⟩ := h
      exact ⟨_, _, _, _, _, _, haction, halternate, hmerge⟩
  obtain ⟨_, _, _, _, _, _, haction, halternate, hmerge⟩ := hparts
  obtain rfl := returned_eq_false rfl hbefore htranslate
  exact
    { before := ⟨values, values', blockRegisters_spec hblock,
        (straight_of_translate hbefore htranslate).1, comparisonValue_spec hrelation⟩
      action := emitAction_spec hplan haction
      alternate := emitAlternate_spec hplan halternate
      continuation := emitMerge_spec hplan hmerge }

/-- An emitted guarded loop has the shape of its plan. -/
lemma emitGuardedLoop_spec {helper : Word} {optimized : Bool} {step : Symbolic}
    (hbefore : l.preparationPc + 1 ≤ plan.comparisonPc) (hloop : l.loopPc < p.sizecode) :
    OnSuccess (emitGuardedLoop p l helper optimized step plan)
      (GuardedAccepted p l plan ∧ StraightFrom p l.carried none (l.loopPc + 1) p.sizecode true) := by
  have htail : ∀ exit dispatch scalar unrolled, OnSuccess
      (do emitIterations p l plan exit dispatch unrolled
          emitIteration p l plan exit scalar dispatch true
          emitExit p l exit "guarded Lua numeric loop has no return")
      (GuardedAccepted p l plan ∧ StraightFrom p l.carried none (l.loopPc + 1) p.sizecode true) :=
    fun exit dispatch scalar unrolled => .bind fun _ =>
      .both (fun _ _ _ => emitIteration_spec hplan hbefore) fun _ _ _ _ => emitExit_spec hloop
  unfold emitGuardedLoop
  refine .bind fun dispatch => .bind fun checks => .bind fun unrolled => .bind fun scalar =>
    .bind fun exit => .bind fun entries => .bind fun _ => .bind fun _ => ?_
  dsimp only
  split
  · refine .bind fun _ => .bind fun _ => .bind fun _ => ?_
    split
    · exact .bind fun _ => htail exit dispatch scalar _
    · exact .bind fun _ => .bind fun _ => htail exit dispatch scalar _
  · refine .bind fun _ => .bind fun _ => .bind fun _ => ?_
    split
    · exact .bind fun _ => htail exit dispatch scalar _
    · exact .bind fun _ => .bind fun _ => htail exit dispatch scalar _
  · refine .bind fun _ => .bind fun _ => ?_
    split
    · exact .bind fun _ => htail exit dispatch scalar _
    · exact .bind fun _ => .bind fun _ => htail exit dispatch scalar _

end guarded

section plain

variable (hbody : l.preparationPc + 1 ≤ l.loopPc)
include hbody

/-- A copy of the body at the start of a block. -/
lemma ensures_body {α : Type} {block : Block} {k : List Value × Bool → EmitGraph α} :
    OnSuccess (blockRegisters p l.carried block >>= fun values =>
        translate p l.bodyRules (l.preparationPc + 1) l.loopPc values >>= k)
      (StraightFrom p l.carried (some l.stateBase) (l.preparationPc + 1) l.loopPc false) := by
  intro e a e' hrun
  obtain ⟨values, _, hblock, hrun⟩ := bind_run_eq_ok.mp hrun
  obtain ⟨⟨values', returned⟩, _, htranslate, -⟩ := bind_run_eq_ok.mp hrun
  obtain rfl := returned_eq_false rfl hbody htranslate
  exact straightFrom_of_translate hblock hbody htranslate

/-- The body of an emitted loop with a step in a parameter is straight-line code. -/
lemma emitParameterStepLoop_spec {helper : Word} {optimized : Bool} (hloop : l.loopPc < p.sizecode) :
    OnSuccess (emitParameterStepLoop p l helper optimized)
      (StraightFrom p l.carried (some l.stateBase) (l.preparationPc + 1) l.loopPc false ∧
        StraightFrom p l.carried none (l.loopPc + 1) p.sizecode true) := by
  have htail : ∀ factor unrolled scalar dispatch exit, OnSuccess
      (do emitCountedCopies p l factor unrolled dispatch exit
            "numeric loop lost its induction state" "numeric loop has an undefined carried register"
          emitCountedTail p l scalar dispatch exit
            "numeric loop lost its scalar induction state"
            "numeric scalar tail has an undefined carried register"
          emitExit p l exit "Lua numeric loop has no supported return")
      (StraightFrom p l.carried (some l.stateBase) (l.preparationPc + 1) l.loopPc false ∧
        StraightFrom p l.carried none (l.loopPc + 1) p.sizecode true) :=
    fun factor unrolled scalar dispatch exit => .bind fun _ =>
      .both (.bind fun _ => ensures_body hbody) fun _ _ _ _ => emitExit_spec hloop
  unfold emitParameterStepLoop
  refine .bind fun positive => .bind fun nonpositive => .bind fun negative => .bind fun dispatch =>
    .bind fun checks => .bind fun unrolled => .bind fun scalar => .bind fun exit => .bind fun _ =>
    .bind fun _ => .bind fun _ => .bind fun _ => .bind fun _ => ?_
  dsimp only
  split
  · exact .bind fun _ => htail _ unrolled scalar dispatch exit
  · exact .bind fun _ => .bind fun _ => .bind fun _ => htail _ unrolled scalar dispatch exit

/-- The body of an emitted loop with a constant step is straight-line code. -/
lemma emitConstantStepLoop_spec {optimized : Bool} {step : Word} (hloop : l.loopPc < p.sizecode) :
    OnSuccess (emitConstantStepLoop p l optimized step)
      (StraightFrom p l.carried (some l.stateBase) (l.preparationPc + 1) l.loopPc false ∧
        StraightFrom p l.carried none (l.loopPc + 1) p.sizecode true) := by
  unfold emitConstantStepLoop
  refine .bind fun dispatch => .bind fun unrollCheck => .bind fun unrolled => .bind fun _ =>
    .bind fun scalar => .bind fun scalarContinue => .bind fun exit => .bind fun _ => .bind fun _ =>
    .bind fun _ => .bind fun _ => .bind fun _ => .bind fun _ => .bind fun _ => .bind fun _ => ?_
  exact .and (ensures_body hbody)
    (.bind fun _ => .bind fun _ => .bind fun _ => fun _ _ _ => emitExit_spec hloop)

end plain

/-- The preparation that is found is the only one. -/
lemma findPreparation_spec {preparationPc : Nat} (h : findPreparation p = .ok preparationPc) :
    ∀ pc < p.sizecode, (p.fetch pc).opcode = .forPrep ↔ pc = preparationPc := by
  unfold findPreparation at h
  intro pc hpc
  have hmem : pc ∈ (List.range p.sizecode).filter (fun pc => (p.fetch pc).opcode == .forPrep) ↔
      (p.fetch pc).opcode = .forPrep := by
    simp [hpc]
  split at h
  case h_2 only heq =>
    cases h
    rw [← hmem, heq, List.mem_singleton]
  all_goals cases h

/-- The condition of a body, if it has one, stands between the two ends of the loop. -/
lemma findGuardedBody_spec {preparationPc loopPc : Nat} {guarded : Option GuardedBodyPlan}
    (h : findGuardedBody p preparationPc loopPc = .ok guarded) : ∀ plan ∈ guarded,
      preparationPc + 1 ≤ plan.comparisonPc ∧ plan.comparisonPc < loopPc ∧
      isIntegerComparison (p.fetch plan.comparisonPc).opcode ∧ PlanBounds p loopPc plan ∧
      ∀ pc < loopPc, preparationPc < pc → isIntegerComparison (p.fetch pc).opcode →
        pc = plan.comparisonPc := by
  unfold findGuardedBody at h
  rintro plan hplan
  split at h
  case h_1 => cases h; cases hplan
  case h_2 pc rest heq =>
    obtain ⟨found, hfound, h⟩ := bind_eq_ok.mp h
    split at h
    case h_2 => cases h
    case h_1 =>
      cases h
      cases hplan
      obtain ⟨rfl, hbounds⟩ := planGuardedBody_spec hfound
      have hmem : ∀ q, q ∈ [plan.comparisonPc] ↔
          q < loopPc ∧ preparationPc < q ∧ isIntegerComparison (p.fetch q).opcode := by
        intro q
        rw [← heq, List.mem_filter, List.mem_range, Bool.and_eq_true, decide_eq_true_iff]
      obtain ⟨hend, hbegin, hopcode⟩ := (hmem plan.comparisonPc).mp (List.mem_singleton_self _)
      exact ⟨hbegin, hend, hopcode, hbounds, fun q hq hafter hcomparison =>
        List.mem_singleton.mp ((hmem q).mpr ⟨hq, hafter, hcomparison⟩)⟩

/-- Only parameters have a value at the entry. -/
lemma parameterRegisters_spec {parameter : Nat → Value} {r : Nat}
    (h : ((parameterRegisters p parameter).getD r .invalid).valid) : r < p.numparams := by
  by_contra hr
  by_cases hstack : r < p.maxstacksize
  · simp [parameterRegisters, List.getD, List.getElem?_map, List.getElem?_range hstack, hr,
      Value.valid, Value.invalid] at h
  · rw [parameterRegisters, List.getD, List.getElem?_eq_none (by simpa using hstack)] at h
    simp [Value.valid, Value.invalid] at h

/-- The three shapes of a loop. -/
lemma emitLoop_spec {helper : Word} {optimized : Bool} {guarded : Option GuardedBodyPlan}
    {step : Symbolic} (hloop : l.loopPc < p.sizecode) (hinside : l.preparationPc + 1 ≤ l.loopPc)
    (hguard : findGuardedBody p l.preparationPc l.loopPc = .ok guarded) :
    OnSuccess (match guarded, step with
        | some plan, step => emitGuardedLoop p l helper optimized step plan
        | none, .constant step => emitConstantStepLoop p l optimized step
        | none, _ => emitParameterStepLoop p l helper optimized)
      (BodyAccepted p l guarded ∧ StraightFrom p l.carried none (l.loopPc + 1) p.sizecode true) := by
  rcases guarded with - | plan
  · rcases step with - | step | index
    · exact emitParameterStepLoop_spec hinside hloop
    · exact emitConstantStepLoop_spec hinside hloop
    · exact emitParameterStepLoop_spec hinside hloop
  · obtain ⟨hbefore, -, -, hbounds, -⟩ := findGuardedBody_spec hguard plan rfl
    exact emitGuardedLoop_spec hbounds hbefore hloop

/-- A carried register has a value at the entry of the loop. -/
lemma valid_of_mem_carriedRegisters {preparationPc loopPc stateBase r : Nat} {comparesLimit : Bool}
    {registers : List Value}
    (h : r ∈ carriedRegisters p preparationPc loopPc stateBase comparesLimit registers) :
    (registers.getD r .invalid).valid := by
  rw [carriedRegisters, List.mem_filter, Bool.and_eq_true, decide_eq_true_iff] at h
  exact h.2.1

/-- The shape of a loop. -/
def emitLoop (p : Proto) (l : LoopSite) (helper : Word) (optimized : Bool)
    (guarded : Option GuardedBodyPlan) (step : Symbolic) : EmitGraph Unit :=
  match guarded, step with
  | some plan, step => emitGuardedLoop p l helper optimized step plan
  | none, .constant step => emitConstantStepLoop p l optimized step
  | none, _ => emitParameterStepLoop p l helper optimized

/-- How the graph of a loop was emitted: the code before the loop, from the parameters of the graph
on, and then the loop. -/
structure EmittedLoop (p : Proto) (helper : Word) (optimized : Bool) (l : LoopSite)
    (guarded : Option GuardedBodyPlan) (e e' : Emitter ControlFlowBuilder) : Prop where
  setup : translate p { allowReturn := false } 0 l.preparationPc
    (parameterRegisters p (ControlFlowBuilder.create (List.replicate p.numparams .word)).parameter)
    { builder := ControlFlowBuilder.create (List.replicate p.numparams .word) } =
      .ok (l.registers, false) e
  carried : l.carried = carriedRegisters p l.preparationPc l.loopPc l.stateBase
    ((analyzeLoopControls p l.preparationPc).step.constant?.isSome && guarded.isNone) l.registers
  loop : emitLoop p l helper optimized guarded (analyzeLoopControls p l.preparationPc).step e =
    .ok () e'

/-- A numeric `for` that the translator takes is an accepted loop, which it emits. -/
lemma emittedLoop_of_compile {helper : Word} {optimized : Bool} {f : ControlFlowFunction}
    (h : compileNumericForPrototype p helper optimized = .ok f) :
    ∃ l guarded, ∃ e e' : Emitter ControlFlowBuilder, AcceptedLoop p l guarded ∧
      EmittedLoop p helper optimized l guarded e e' ∧ f = e'.builder.build := by
  unfold compileNumericForPrototype at h
  obtain ⟨_, -, h⟩ := bind_eq_ok.mp h
  obtain ⟨preparationPc, hpreparation, h⟩ := bind_eq_ok.mp h
  obtain ⟨⟨hloop, hlatch, hback⟩, h⟩ := require_bind_eq_ok.mp h
  obtain ⟨⟨hstack, hbase⟩, h⟩ := require_bind_eq_ok.mp h
  obtain ⟨guarded, hguard, h⟩ := bind_eq_ok.mp h
  dsimp only at h
  split at h
  case h_1 => cases h
  case h_2 e' hrun =>
    unfold emitNumericFor at hrun
    obtain ⟨⟨registers, returned⟩, e, htranslate, hcontrols⟩ := bind_run_eq_ok.mp hrun
    obtain ⟨_, _, hcheck, hnonzero⟩ := bind_run_eq_ok.mp hcontrols
    obtain ⟨⟨hstart, hlimit, hstep, hknownStart, hknownStep⟩, rfl⟩ := check_eq_ok.mp hcheck
    obtain ⟨_, _, hcheck, hemit⟩ := bind_run_eq_ok.mp hnonzero
    obtain ⟨hstepNonzero, rfl⟩ := check_eq_ok.mp hcheck
    let l : LoopSite :=
      { preparationPc := preparationPc
        loopPc := preparationPc + (p.fetch preparationPc).Bx + 1
        stateBase := (p.fetch preparationPc).A
        registers := registers
        carried := carriedRegisters p preparationPc (preparationPc + (p.fetch preparationPc).Bx + 1)
          (p.fetch preparationPc).A
          ((analyzeLoopControls p preparationPc).step.constant?.isSome && guarded.isNone)
          registers }
    have hinside : l.preparationPc + 1 ≤ l.loopPc := Nat.succ_le_succ (Nat.le_add_right _ _)
    obtain ⟨hbody, hexit⟩ := emitLoop_spec (l := l) hloop hinside hguard _ _ _ hemit
    obtain rfl := returned_eq_false rfl (Nat.zero_le _) htranslate
    refine ⟨l, guarded, e, e', ?_, ⟨htranslate, rfl, hemit⟩, pure_eq_ok.mp h⟩
    exact
      { preparation := hpreparation
        base := rfl
        loop := rfl
        latch := ⟨hloop, hlatch, hback⟩
        state := ⟨hstack, hbase⟩
        guard := hguard
        setup := ⟨_, fun _ => parameterRegisters_spec,
          (straight_of_translate (Nat.zero_le _) htranslate).1⟩
        controls := ⟨hstart, hlimit, hstep⟩
        known := ⟨hknownStart, hknownStep, hstepNonzero⟩
        carried := fun _ => valid_of_mem_carriedRegisters
        body := hbody
        exit := hexit }

/-- A numeric `for` that the translator takes is an accepted loop. -/
theorem acceptedLoop_of_compile {helper : Word} {optimized : Bool} {f : ControlFlowFunction}
    (h : compileNumericForPrototype p helper optimized = .ok f) :
    ∃ l guarded, AcceptedLoop p l guarded := by
  obtain ⟨l, guarded, -, -, haccepted, -⟩ := emittedLoop_of_compile h
  exact ⟨l, guarded, haccepted⟩

end loops

/-! ## Straight functions -/

end UniJit.Lua
