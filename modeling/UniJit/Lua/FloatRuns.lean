import UniJit.Lua.IntegerRuns
import UniJit.Lua.NumberMachine

/-!
# Running translated Float64 code

The translation of a range of bytecode keeps the registers of the machine as values: wherever the
machine on numbers is in the range, the values of the translation hold the numbers of its registers
as `double`s, and the kinds that it records are theirs (`Holds`). One instruction of the machine is
one step of this simulation (`simulates_instruction`), and a range is a run (`simulates_range`).
-/

namespace UniJit.Lua

open UniJit.Ir UniJit.Lib UniJit.Runtime LawfulScalarBuilder

/-- The values of the translation hold the numbers of the known registers. -/
def Holds (ofInteger : Word → Word) (known : Nat → Prop) (values : List TypedValue)
    (registers : NumberVm.Registers) (bound : Nat) (s : Values) : Prop :=
  ∀ r, known r → (values.getD r {}).value.valid → (values.getD r {}).value.index < bound ∧
    ∃ n : Number, registers r = some n ∧ n.kind = (values.getD r {}).kind ∧
      n.toDouble ofInteger = s.word (values.getD r {}).value

section instructions

variable {B : Type} [LawfulScalarBuilder B] {float : FloatUnit} {code : Code B float}
  {ofInteger : Word → Word} {p : Proto} {e e' : Emitter B} {v : Value} {kept known known' : Nat → Prop}

/-- Writing a computed number keeps the registers held. -/
lemma Holds.write {values : List TypedValue} {registers : NumberVm.Registers} {bound bound' : Nat}
    {s s' : Values} (h : Holds ofInteger known values registers bound s) (hkeeps : Keeps bound s s')
    (hle : bound ≤ bound') (r : Nat) {typed : TypedValue} {n : Number}
    (hknown : ∀ r', known' r' → r' = r ∨ known r')
    (hindex : typed.value.valid → typed.value.index < bound') (hkind : n.kind = typed.kind)
    (hword : typed.value.valid → n.toDouble ofInteger = s'.word typed.value) :
    Holds ofInteger known' (values.set r typed) (Function.update registers r (some n)) bound' s' := by
  intro r' hr' hvalid
  by_cases hr : r' = r
  · subst hr
    have hset : (values.set r' typed).getD r' {} = typed := by
      by_cases hlength : r' < values.length
      · rw [List.getD, List.getElem?_set_self hlength, Option.getD_some]
      · rw [List.getD, List.getElem?_eq_none (by simpa using hlength)] at hvalid
        simp [Value.valid, Value.invalid] at hvalid
    rw [hset] at hvalid ⊢
    exact ⟨hindex hvalid, n, Function.update_self .., hkind, hword hvalid⟩
  · have hset : (values.set r typed).getD r' {} = values.getD r' {} := by
      rw [List.getD, List.getElem?_set_ne (Ne.symm hr), List.getD]
    rw [hset] at hvalid ⊢
    obtain ⟨hlt, n', hn', hkind', hword'⟩ := h r' ((hknown r' hr').resolve_left hr) hvalid
    exact ⟨hlt.trans_le hle, n', by rw [Function.update_of_ne hr]; exact hn', hkind',
      hword'.trans (hkeeps.word _ hlt).symm⟩

/-! ## Emitted operations -/

variable (code) in
/-- An emitted Float64 constant computes its bits. -/
lemma computes_emitFloat64Constant {bits : Word} (ready : Prop)
    (h : emitFloat64Constant bits e = .ok v e') :
    code.Computes e.builder e'.builder v ready fun _ => bits := by
  cases h
  exact Code.computes_append (fun _ _ => trivial) fun _ => rfl

variable (code) in
/-- Arithmetic of a register with a constant that is emitted before it. -/
lemma computes_withConstant {opcode : BinaryOpcode} {lhs c : Value} {bits : Word}
    {e₁ : Emitter B} (hconstant : emitFloat64Constant bits e = .ok c e₁)
    (hbinary : emitBinary opcode lhs c e₁ = .ok v e') :
    code.Computes e.builder e'.builder v (lhs.index < size e.builder)
      fun s => evaluateBinary float opcode (s.word lhs) bits := by
  have hv := computes_emitBinary code hbinary
  have hc := computes_emitFloat64Constant code (lhs.index < size e.builder) hconstant
  have hvalid : accepts e₁.builder → c.valid := by
    cases hconstant
    exact fun haccepts => Code.valid_append.mpr (Code.accepts_of_append haccepts)
  refine hc.trans hv (fun hlhs haccepts => ?_) (fun hvalid' => ?_) fun hlhs s s' hkeeps hword => ?_
  · exact ⟨hlhs.trans_le hc.grows.size_le, hvalid haccepts, hc.index_lt (hvalid haccepts)⟩
  · cases hbinary
    exact hvalid (Code.valid_append.mp hvalid')
  · rw [hkeeps.word lhs hlhs, hword]

/-- The emitted opcode does the machine's arithmetic. -/
lemma evaluate_floatOpcode (opcode : OpCode) (x y : Word) :
    evaluateBinary float opcode.floatOpcode x y = opcode.floatArithmetic float x y := by
  cases opcode <;> rfl

/-! ## One instruction -/

/-- Between two points the code takes a run along with the machine, which does not change the
registers that are `kept`. -/
structure Simulates (code : Code B float) (ofInteger : Word → Word) (p : Proto) (kept : Nat → Prop)
    (a a' : Point B TypedValue) : Prop where
  grows : Code.Grows a.builder a'.builder
  leads : code.Part a'.builder → ∀ s m registers, s.words.length = code.total →
    Holds ofInteger a.known a.values registers (size a.builder) s →
    ∃ s' registers', code.Leads a.builder s m a'.builder s' m ∧ Keeps (size a.builder) s s' ∧
      NumberVm.Leads float ofInteger p ⟨a.pc, registers⟩ ⟨a'.pc, registers'⟩ ∧
      (∀ r, kept r → registers' r = registers r) ∧
      Holds ofInteger a'.known a'.values registers' (size a'.builder) s'

/-- A register with a value, in the machine. -/
lemma Holds.number {values : List TypedValue} {registers : NumberVm.Registers} {bound : Nat}
    {s : Values} (h : Holds ofInteger known values registers bound s) {r : Nat} (hknown : known r)
    (hr : validTyped values r) :
    (values.getD r {}).value.index < bound ∧ ∃ n : Number, registers r = some n ∧
      n.kind = (values.getD r {}).kind ∧
      n.toDouble ofInteger = s.word (values.getD r {}).value :=
  h r hknown hr.2

/-- A constant that converts is a number of its kind. -/
lemma number_of_toDouble {index : Nat} {bits : Word} {kind : NumericKind}
    (h : p.toDouble ofInteger index = some (bits, kind)) :
    ∃ n, p.number index = some n ∧ n.kind = kind ∧ n.toDouble ofInteger = bits := by
  rw [Proto.toDouble] at h
  cases hconstant : p.k[index]? with
  | none => simp [hconstant] at h
  | some constant =>
    rw [hconstant] at h
    cases constant with
    | integer value =>
      cases h
      exact ⟨.integer value, by rw [Proto.number, hconstant], rfl, rfl⟩
    | float bits =>
      cases h
      exact ⟨.float bits, by rw [Proto.number, hconstant], rfl, rfl⟩
    | other => cases h

section cases

variable {pc stop next : Nat} {values values' : List TypedValue}

section writes

variable (hknown : ∀ r, known' r → r = (p.fetch pc).A ∨ known r) (hkept : ¬kept (p.fetch pc).A)
include hknown hkept

/-- An instruction that computes its result from the values of its operands. -/
lemma simulates_of_computes {kind : NumericKind} {ready : Prop} {w : Values → Word}
    (h : code.Computes e.builder e'.builder v ready w)
    (hwrites : (p.fetch pc).opcode.writesFloatDestination = true)
    (hfallback : (p.fetch pc).width = 2 → (p.fetch (pc + 1)).opcode.callsMetamethod = true)
    (hmachine : ∀ s registers, Holds ofInteger known values registers (size e.builder) s →
      ready ∧ ∃ n : Number, NumberVm.step float ofInteger p ⟨pc, registers⟩ =
        some (NumberVm.write ⟨pc, registers⟩ (p.fetch pc).A n next) ∧ n.kind = kind ∧
        n.toDouble ofInteger = w s) :
    Simulates code ofInteger p kept ⟨pc, known, values, e.builder⟩
      ⟨next, known', values.set (p.fetch pc).A ⟨v, kind⟩, e'.builder⟩ where
  grows := h.grows
  leads := by
    intro hpart s m registers hlength hholds
    obtain ⟨hready, n, hstep, hkind, hword⟩ := hmachine s registers hholds
    obtain ⟨s', hleads, hkeeps, hv⟩ := h.leads hready hpart s m hlength
    refine ⟨s', _, hleads, hkeeps, .single ⟨hwrites, hfallback, hstep⟩,
      fun r hr => Function.update_of_ne ?_ _ _,
      hholds.write hkeeps h.grows.size_le _ hknown h.index_lt hkind
        fun hvalid => hword.trans (hv hvalid).symm⟩
    rintro rfl
    exact hkept hr

/-- An arithmetic instruction whose operands the machine has. -/
lemma simulates_of_operands {ready : Prop} {w : Values → Word}
    (h : code.Computes e.builder e'.builder v ready w)
    (hwrites : (p.fetch pc).opcode.writesFloatDestination = true)
    (hfallback : (p.fetch (pc + 1)).opcode.callsMetamethod = true)
    (hmachine : ∀ s registers, Holds ofInteger known values registers (size e.builder) s →
      ready ∧ ∃ x y, NumberVm.operands p ⟨pc, registers⟩ (p.fetch pc) = some (x, y) ∧
        ((p.fetch pc).opcode.dividesFloats = true ∨ HasFloatOperand x.kind y.kind) ∧
        (p.fetch pc).opcode.floatArithmetic float (x.toDouble ofInteger) (y.toDouble ofInteger) =
          w s) :
    Simulates code ofInteger p kept ⟨pc, known, values, e.builder⟩
      ⟨pc + 2, known', values.set (p.fetch pc).A ⟨v, .float64⟩, e'.builder⟩ := by
  refine simulates_of_computes hknown hkept h hwrites (fun _ => hfallback) fun s registers hholds => ?_
  obtain ⟨hready, x, y, hoperands, hfloat, hw⟩ := hmachine s registers hholds
  refine ⟨hready, .float (w s), ?_, rfl, rfl⟩
  rw [NumberVm.step_of_operands hoperands, NumberVm.compute_of_float hfloat, hw]

end writes

variable (hreads : ∀ r ∈ (p.fetch pc).floatReads, known r)
  (hknown : ∀ r, known' r → r = (p.fetch pc).A ∨ known r) (hkept : ¬kept (p.fetch pc).A)
include hreads hknown hkept

/-- An instruction with an immediate is simulated. -/
lemma simulates_immediate (hopcode : (p.fetch pc).opcode = .addI)
    (h : translateFloatImmediate ofInteger p pc stop values e = .ok (values', next) e') :
    Simulates code ofInteger p kept ⟨pc, known, values, e.builder⟩
      ⟨next, known', values', e'.builder⟩ := by
  simp only [translateFloatImmediate, checkFallback, bind_run_eq_ok, check_eq_ok, pure_run_eq_ok] at h
  obtain ⟨-, _, ⟨⟨-, hsource⟩, rfl⟩, -, _, ⟨hkind, rfl⟩, c, e₁, hconstant, v, e₂, hbinary, -, _,
    ⟨⟨-, hfallback⟩, rfl⟩, hdone, rfl⟩ := h
  cases hdone
  refine simulates_of_operands hknown hkept (computes_withConstant code hconstant hbinary)
    (by rw [hopcode]; rfl) (by rw [hfallback]; rfl) ?_
  intro s registers hholds
  obtain ⟨hlt, x, hx, hxkind, hxword⟩ :=
    hholds.number (hreads _ (by simp [Instruction.floatReads, hopcode])) hsource
  refine ⟨hlt, x, .integer (BitVec.ofInt 64 (p.fetch pc).sC), ?_, .inr (.inl ?_), ?_⟩
  · simp only [NumberVm.operands, hopcode, hx]
    rfl
  · rw [hxkind, hkind]
  · rw [evaluate_floatOpcode, hxword]
    rfl

/-- An instruction with a constant is simulated. -/
lemma simulates_constant (hopcode : (p.fetch pc).opcode = .addK ∨ (p.fetch pc).opcode = .subK ∨
      (p.fetch pc).opcode = .mulK ∨ (p.fetch pc).opcode = .divK)
    (h : translateFloatConstant ofInteger p pc stop values e = .ok (values', next) e') :
    Simulates code ofInteger p kept ⟨pc, known, values, e.builder⟩
      ⟨next, known', values', e'.builder⟩ := by
  simp only [translateFloatConstant, checkFallback, bind_run_eq_ok, check_eq_ok] at h
  obtain ⟨-, _, ⟨⟨-, hsource, -⟩, rfl⟩, hrest⟩ := h
  rcases hdouble : p.toDouble ofInteger (p.fetch pc).C with - | ⟨bits, kind⟩
  · rw [hdouble] at hrest
    exact absurd hrest throw_run_ne_ok
  rw [hdouble] at hrest
  simp only [bind_run_eq_ok, check_eq_ok, pure_run_eq_ok] at hrest
  obtain ⟨-, _, ⟨hkind, rfl⟩, c, e₁, hconstant, v, e₂, hbinary, -, _, ⟨⟨-, hfallback⟩, rfl⟩,
    hdone, rfl⟩ := hrest
  cases hdone
  have hwrites : (p.fetch pc).opcode.writesFloatDestination = true := by
    rcases hopcode with hopcode | hopcode | hopcode | hopcode
    all_goals
      rw [hopcode]
      rfl
  refine simulates_of_operands hknown hkept (computes_withConstant code hconstant hbinary) hwrites
    (by rw [hfallback]; rfl) ?_
  have hpair : (p.fetch pc).B ∈ (p.fetch pc).floatReads := by
    rcases hopcode with hopcode | hopcode | hopcode | hopcode
    all_goals simp [Instruction.floatReads, hopcode]
  intro s registers hholds
  obtain ⟨hlt, x, hx, hxkind, hxword⟩ := hholds.number (hreads _ hpair) hsource
  obtain ⟨y, hy, rfl, rfl⟩ := number_of_toDouble hdouble
  refine ⟨hlt, x, y, ?_, ?_, ?_⟩
  · rcases hopcode with hopcode | hopcode | hopcode | hopcode
    all_goals
      simp only [NumberVm.operands, hopcode, hx, hy]
      rfl
  · rcases hkind with hdivides | hfloat
    · exact .inl (by rw [hdivides]; rfl)
    · exact .inr (by rw [hxkind]; exact hfloat)
  · rw [evaluate_floatOpcode, hxword]

/-- An instruction on two registers is simulated. -/
lemma simulates_registers (hopcode : (p.fetch pc).opcode = .add ∨ (p.fetch pc).opcode = .sub ∨
      (p.fetch pc).opcode = .mul ∨ (p.fetch pc).opcode = .div)
    (h : translateFloatRegisters p pc stop values e = .ok (values', next) e') :
    Simulates code ofInteger p kept ⟨pc, known, values, e.builder⟩
      ⟨next, known', values', e'.builder⟩ := by
  simp only [translateFloatRegisters, checkFallback, bind_run_eq_ok, check_eq_ok, pure_run_eq_ok] at h
  obtain ⟨-, _, ⟨⟨-, hlhs, hrhs⟩, rfl⟩, -, _, ⟨hkind, rfl⟩, v, e₁, hbinary, -, _,
    ⟨⟨-, hfallback⟩, rfl⟩, hdone, rfl⟩ := h
  cases hdone
  have hwrites : (p.fetch pc).opcode.writesFloatDestination = true := by
    rcases hopcode with hopcode | hopcode | hopcode | hopcode
    all_goals
      rw [hopcode]
      rfl
  refine simulates_of_operands hknown hkept (computes_emitBinary code hbinary) hwrites
    (by rw [hfallback]; rfl) ?_
  have hpair : (p.fetch pc).floatReads = [(p.fetch pc).B, (p.fetch pc).C] := by
    rcases hopcode with hopcode | hopcode | hopcode | hopcode
    all_goals simp [Instruction.floatReads, hopcode]
  rw [hpair] at hreads
  intro s registers hholds
  obtain ⟨hlt, x, hx, hxkind, hxword⟩ := hholds.number (hreads _ (by simp)) hlhs
  obtain ⟨hlt', y, hy, hykind, hyword⟩ := hholds.number (hreads _ (by simp)) hrhs
  refine ⟨fun _ => ⟨hlt, hrhs.2, hlt'⟩, x, y, ?_, ?_, ?_⟩
  · rcases hopcode with hopcode | hopcode | hopcode | hopcode
    all_goals
      simp only [NumberVm.operands, hopcode, hx, hy]
      rfl
  · rcases hkind with hdivides | hfloat
    · exact .inl (by rw [hdivides]; rfl)
    · exact .inr (by rw [hxkind, hykind]; exact hfloat)
  · rw [evaluate_floatOpcode, hxword, hyword]

/-- One instruction that writes a register. -/
lemma simulates_instruction {inLoop : Bool}
    (h : translateFloatInstruction ofInteger p inLoop pc stop values e = .ok (values', next) e') :
    Simulates code ofInteger p kept ⟨pc, known, values, e.builder⟩
      ⟨next, known', values', e'.builder⟩ := by
  have hload : ∀ (n : Number) {bits : Word} {kind : NumericKind} {v : Value},
      (p.fetch pc).opcode.writesFloatDestination = true → (p.fetch pc).width = 1 →
      emitFloat64Constant bits e = .ok v e' → n.kind = kind → n.toDouble ofInteger = bits →
      (∀ registers, NumberVm.step float ofInteger p ⟨pc, registers⟩ =
        some (NumberVm.write ⟨pc, registers⟩ (p.fetch pc).A n (pc + 1))) →
      Simulates code ofInteger p kept ⟨pc, known, values, e.builder⟩
        ⟨pc + 1, known', values.set (p.fetch pc).A ⟨v, kind⟩, e'.builder⟩ := by
    intro n bits kind v hwrites hwidth hconstant hkind hword hstep
    exact simulates_of_computes hknown hkept (computes_emitFloat64Constant code True hconstant) hwrites
      (fun htwo => by omega) fun s registers _ => ⟨trivial, n, hstep registers, hkind, hword⟩
  unfold translateFloatInstruction at h
  simp only [Instruction.width] at hload
  rcases hopcode : (p.fetch pc).opcode
  all_goals simp only [hopcode] at h hload
  case move =>
    simp only [bind_run_eq_ok, check_eq_ok, pure_run_eq_ok] at h
    obtain ⟨-, _, ⟨⟨-, hsource⟩, rfl⟩, hdone, rfl⟩ := h
    cases hdone
    refine ⟨.refl _, fun _ s m registers hlength hholds => ?_⟩
    obtain ⟨hlt, n, hn, hkind, hword⟩ :=
      hholds.number (hreads _ (by simp [Instruction.floatReads, hopcode])) hsource
    have hwrites : NumberVm.Writes float ofInteger p ⟨pc, registers⟩
        ⟨pc + 1, Function.update registers (p.fetch pc).A (some n)⟩ := by
      refine ⟨by rw [hopcode]; rfl, by simp [Instruction.width, hopcode], ?_⟩
      simp only [NumberVm.step, hopcode, hn]
      rfl
    refine ⟨s, _, .refl, .refl _ s, .single hwrites, fun r hr => Function.update_of_ne ?_ _ _,
      hholds.write (.refl _ s) le_rfl _ hknown (fun _ => hlt) hkind fun _ => hword⟩
    rintro rfl
    exact hkept hr
  case loadI =>
    simp only [bind_run_eq_ok, check_eq_ok, pure_run_eq_ok] at h
    obtain ⟨-, _, ⟨-, rfl⟩, v, _, hconstant, hdone, rfl⟩ := h
    cases hdone
    refine hload (.integer (BitVec.ofInt 64 (p.fetch pc).sBx)) rfl trivial hconstant rfl rfl
      fun _ => ?_
    simp only [NumberVm.step, hopcode]
    rfl
  case loadF =>
    simp only [bind_run_eq_ok, check_eq_ok, pure_run_eq_ok] at h
    obtain ⟨-, _, ⟨-, rfl⟩, v, _, hconstant, hdone, rfl⟩ := h
    cases hdone
    refine hload (.float (ofInteger (BitVec.ofInt 64 (p.fetch pc).sBx))) rfl trivial hconstant rfl
      rfl fun _ => ?_
    simp only [NumberVm.step, hopcode]
    rfl
  case loadK =>
    simp only [bind_run_eq_ok, check_eq_ok] at h
    obtain ⟨-, _, ⟨-, rfl⟩, hrest⟩ := h
    rcases hdouble : p.toDouble ofInteger (p.fetch pc).Bx with - | ⟨bits, kind⟩
    · rw [hdouble] at hrest
      exact absurd hrest throw_run_ne_ok
    rw [hdouble] at hrest
    simp only [bind_run_eq_ok, pure_run_eq_ok] at hrest
    obtain ⟨v, _, hconstant, hdone, rfl⟩ := hrest
    cases hdone
    obtain ⟨n, hn, hkind, hword⟩ := number_of_toDouble hdouble
    refine hload n rfl trivial hconstant hkind hword fun registers => ?_
    simp only [NumberVm.step, hopcode, hn]
    rfl
  case addI => exact simulates_immediate hreads hknown hkept hopcode h
  case addK | subK | mulK | divK =>
    exact simulates_constant hreads hknown hkept (by simp [hopcode]) h
  case add | sub | mul | div => exact simulates_registers hreads hknown hkept (by simp [hopcode]) h
  case unm =>
    simp only [bind_run_eq_ok, check_eq_ok, pure_run_eq_ok] at h
    obtain ⟨-, _, ⟨⟨-, hsource⟩, rfl⟩, -, _, ⟨hkind, rfl⟩, v, _, hunary, hdone, rfl⟩ := h
    cases hdone
    refine simulates_of_computes hknown hkept (computes_emitUnary code (by simp) hunary)
      (by rw [hopcode]; rfl) (by simp [Instruction.width, hopcode]) ?_
    intro s registers hholds
    obtain ⟨hlt, x, hx, hxkind, hxword⟩ :=
      hholds.number (hreads _ (by simp [Instruction.floatReads, hopcode])) hsource
    obtain ⟨bits, rfl⟩ : ∃ bits, x = .float bits := by
      rw [hkind] at hxkind
      rcases x with x | x
      · cases hxkind
      · exact ⟨x, rfl⟩
    refine ⟨fun _ => hlt, .float (bits ^^^ (1 <<< 63)), ?_, rfl, ?_⟩
    · simp only [NumberVm.step, hopcode, hx]
      rfl
    · rw [← hxword]
      rfl
  all_goals exact absurd h throw_run_ne_ok

end cases

/-- What the translator asks of an instruction that writes a register. -/
structure FloatAccepts (p : Proto) (pc stop next : Nat) : Prop where
  writes : (p.fetch pc).opcode.writesFloatDestination = true
  fallback : (p.fetch pc).width = 2 → (p.fetch (pc + 1)).opcode.callsMetamethod = true
  next_eq : next = pc + (p.fetch pc).width
  fits : next ≤ stop

/-- **One instruction**: the code that is emitted for it simulates it. -/
lemma translateFloatInstruction_spec {inLoop : Bool} {pc stop next : Nat}
    {values values' : List TypedValue} (hpc : pc < stop)
    (h : translateFloatInstruction ofInteger p inLoop pc stop values e = .ok (values', next) e') :
    FloatAccepts p pc stop next := by
  have hone : (p.fetch pc).opcode.writesFloatDestination = true → (p.fetch pc).width = 1 →
      next = pc + 1 → FloatAccepts p pc stop next := by
    intro hwrites hwidth hnext
    exact ⟨hwrites, fun htwo => by omega, by omega, by omega⟩
  have htwo : ∀ opcode : OpCode, (p.fetch pc).opcode.writesFloatDestination = true →
      (p.fetch pc).width = 2 → pc + 1 < stop → (p.fetch (pc + 1)).opcode = opcode →
      opcode.callsMetamethod = true → next = pc + 2 → FloatAccepts p pc stop next := by
    intro opcode hwrites hwidth hfits hopcode hcalls hnext
    exact ⟨hwrites, fun _ => by rw [hopcode, hcalls], by omega, by omega⟩
  unfold translateFloatInstruction at h
  simp only [Instruction.width] at hone htwo
  rcases hopcode : (p.fetch pc).opcode
  all_goals simp only [hopcode] at h hone htwo
  case move =>
    simp only [bind_run_eq_ok, check_eq_ok, pure_run_eq_ok] at h
    obtain ⟨-, _, -, hdone, -⟩ := h
    exact hone rfl trivial (congrArg Prod.snd hdone).symm
  case loadI | loadF =>
    simp only [bind_run_eq_ok, check_eq_ok, pure_run_eq_ok] at h
    obtain ⟨-, _, -, _, _, -, hdone, -⟩ := h
    exact hone rfl trivial (congrArg Prod.snd hdone).symm
  case loadK =>
    simp only [bind_run_eq_ok, check_eq_ok] at h
    obtain ⟨-, _, -, hrest⟩ := h
    rcases hdouble : p.toDouble ofInteger (p.fetch pc).Bx with - | ⟨bits, kind⟩
    · rw [hdouble] at hrest
      exact absurd hrest throw_run_ne_ok
    rw [hdouble] at hrest
    simp only [bind_run_eq_ok, pure_run_eq_ok] at hrest
    obtain ⟨_, _, -, hdone, -⟩ := hrest
    exact hone rfl trivial (congrArg Prod.snd hdone).symm
  case unm =>
    simp only [bind_run_eq_ok, check_eq_ok, pure_run_eq_ok] at h
    obtain ⟨-, _, -, -, _, -, _, _, -, hdone, -⟩ := h
    exact hone rfl trivial (congrArg Prod.snd hdone).symm
  case addI =>
    simp only [translateFloatImmediate, checkFallback, bind_run_eq_ok, check_eq_ok,
      pure_run_eq_ok] at h
    obtain ⟨-, _, -, -, _, -, _, _, -, _, _, -, -, _, ⟨⟨hfits, hfallback⟩, -⟩, hdone, -⟩ := h
    exact htwo _ rfl trivial hfits hfallback rfl (congrArg Prod.snd hdone).symm
  case addK | subK | mulK | divK =>
    simp only [translateFloatConstant, checkFallback, bind_run_eq_ok, check_eq_ok] at h
    obtain ⟨-, _, -, hrest⟩ := h
    rcases hdouble : p.toDouble ofInteger (p.fetch pc).C with - | ⟨bits, kind⟩
    · rw [hdouble] at hrest
      exact absurd hrest throw_run_ne_ok
    rw [hdouble] at hrest
    simp only [bind_run_eq_ok, check_eq_ok, pure_run_eq_ok] at hrest
    obtain ⟨-, _, -, _, _, -, _, _, -, -, _, ⟨⟨hfits, hfallback⟩, -⟩, hdone, -⟩ := hrest
    exact htwo _ rfl trivial hfits hfallback rfl (congrArg Prod.snd hdone).symm
  case add | sub | mul | div =>
    simp only [translateFloatRegisters, checkFallback, bind_run_eq_ok, check_eq_ok,
      pure_run_eq_ok] at h
    obtain ⟨-, _, -, -, _, -, _, _, -, -, _, ⟨⟨hfits, hfallback⟩, -⟩, hdone, -⟩ := h
    exact htwo _ rfl trivial hfits hfallback rfl (congrArg Prod.snd hdone).symm
  all_goals exact absurd h throw_run_ne_ok

/-! ## Ranges -/

/-- The registers that are known at the positions of a range, as in `Scope`. -/
structure FloatScope (p : Proto) (start stop : Nat) (scope : Nat → Nat → Prop) : Prop where
  reads : ∀ pc, start ≤ pc → pc < stop → ∀ r ∈ (p.fetch pc).floatReads, scope pc r
  writes : ∀ pc, start ≤ pc → (p.fetch pc).opcode.writesFloatDestination = true →
    ((p.fetch pc).width = 2 → (p.fetch (pc + 1)).opcode.callsMetamethod = true) →
    ∀ r, scope (pc + (p.fetch pc).width) r → r = (p.fetch pc).A ∨ scope pc r

lemma FloatScope.all (p : Proto) (start stop : Nat) : FloatScope p start stop fun _ _ => True :=
  ⟨fun _ _ _ _ _ => trivial, fun _ _ _ _ _ _ => .inr trivial⟩

variable {a a' a'' : Point B TypedValue}

lemma Simulates.refl (a : Point B TypedValue) : Simulates code ofInteger p kept a a :=
  ⟨.refl _, fun _ s _ registers _ hholds =>
    ⟨s, registers, .refl, .refl _ s, .refl, fun _ _ => rfl, hholds⟩⟩

/-- Simulations compose. -/
lemma Simulates.trans (h : Simulates code ofInteger p kept a a')
    (h' : Simulates code ofInteger p kept a' a'') : Simulates code ofInteger p kept a a'' where
  grows := h.grows.trans h'.grows
  leads := by
    intro hpart s m registers hlength hholds
    obtain ⟨s₁, registers₁, hleads, hkeeps, hmachine, hkept, hholds₁⟩ :=
      h.leads (h'.grows.part hpart) s m registers hlength hholds
    obtain ⟨s₂, registers₂, hleads', hkeeps', hmachine', hkept', hholds₂⟩ :=
      h'.leads hpart s₁ m registers₁ (hkeeps.length.trans hlength) hholds₁
    exact ⟨s₂, registers₂, hleads.trans hleads', hkeeps.trans hkeeps' h.grows.size_le,
      hmachine.trans hmachine', fun r hr => (hkept' r hr).trans (hkept r hr), hholds₂⟩

/-- A return that the translation records. -/
structure RecordsReturn (p : Proto) (a : Point B TypedValue) (b' : B) : Prop where
  opcode : (p.fetch a.pc).opcode = .ret1 ∨
    (p.fetch a.pc).opcode = .ret ∧ (p.fetch a.pc).B = 2 ∧ (p.fetch a.pc).k = false
  known : a.known (p.fetch a.pc).A
  value : validTyped a.values (p.fetch a.pc).A
  kind : (a.values.getD (p.fetch a.pc).A {}).kind = .float64
  recorded : ScalarBuilder.setReturn a.builder (a.values.getD (p.fetch a.pc).A {}).value = .ok b'

/-- The machine returns the word of the recorded value. -/
lemma RecordsReturn.ends {b' : B} (h : RecordsReturn p a b') {registers : NumberVm.Registers}
    {s : Values} (hholds : Holds ofInteger a.known a.values registers (size a.builder) s) :
    NumberVm.Ends float ofInteger p ⟨a.pc, registers⟩
      (.returned (.float (s.word (a.values.getD (p.fetch a.pc).A {}).value))) := by
  obtain ⟨-, n, hn, hkind, hword⟩ := hholds.number h.known h.value
  rw [h.kind] at hkind
  obtain ⟨bits, rfl⟩ : ∃ bits, n = .float bits := by
    rcases n with x | x
    · cases hkind
    · exact ⟨x, rfl⟩
  obtain rfl : bits = _ := hword
  refine (NumberVm.ends_done ?_).mpr rfl
  rcases h.opcode with hopcode | ⟨hopcode, hfixed⟩
  · simp only [NumberVm.step, hopcode, hn]
    rfl
  · simp only [NumberVm.step, hopcode, if_pos hfixed, hn]
    rfl

/-- A return gives the register's number as a Float64. -/
lemma translateFloatReturn_spec {allowReturn returned : Bool} {pc : Nat}
    {values values' : List TypedValue}
    (hreturn : (p.fetch pc).opcode = .ret1 ∨ (p.fetch pc).opcode = .ret)
    (hknown : known (p.fetch pc).A)
    (h : translateFloatReturn p allowReturn pc values e = .ok (values', returned) e') :
    allowReturn = true ∧ values' = values ∧ returned = true ∧
      RecordsReturn p ⟨pc, known, values, e.builder⟩ e'.builder := by
  simp only [translateFloatReturn, bind_run_eq_ok, check_eq_ok, pure_run_eq_ok, attempt_eq_ok] at h
  obtain ⟨-, _, ⟨⟨hallow, hfixed, hvalue⟩, rfl⟩, -, _, ⟨hkind, rfl⟩, -, _, ⟨b₁, hattempt, rfl⟩, hdone,
    rfl⟩ := h
  cases hdone
  refine ⟨hallow, rfl, rfl, hreturn.imp_right fun hret => ⟨hret, hfixed hret⟩, hknown, hvalue, hkind,
    ?_⟩
  rcases hset : ScalarBuilder.setReturn e.builder
    (values.getD (p.fetch pc).A {}).value with status | b
  · rw [hset] at hattempt
    cases hattempt
  · rw [hset] at hattempt
    cases hattempt
    rfl

variable (code kept) in
/-- A range is passed to its end, or to a return in it. -/
lemma simulates_range {allowReturn returned : Bool} {protectedStateBase : Option Nat}
    {start stop fuel pc : Nat} {scope : Nat → Nat → Prop} (hscope : FloatScope p start stop scope)
    (hkept : ∀ r, kept r → ∃ base ∈ protectedStateBase, base ≤ r ∧ r ≤ base + 2)
    {values values' : List TypedValue} (hstart : start ≤ pc) (hpc : pc ≤ stop)
    (hfuel : stop ≤ pc + fuel)
    (h : translateFloatRange ofInteger p allowReturn protectedStateBase stop fuel pc values e =
      .ok (values', returned) e') :
    (returned = false ∧ Simulates code ofInteger p kept ⟨pc, scope pc, values, e.builder⟩
        ⟨stop, scope stop, values', e'.builder⟩) ∨
      (returned = true ∧ allowReturn = true ∧ ∃ last, ∃ e₁ : Emitter B,
        Simulates code ofInteger p kept ⟨pc, scope pc, values, e.builder⟩
          ⟨last, scope last, values', e₁.builder⟩ ∧
        RecordsReturn p ⟨last, scope last, values', e₁.builder⟩ e'.builder) := by
  induction fuel generalizing pc values e with
  | zero =>
      obtain rfl : pc = stop := by omega
      obtain ⟨hdone, rfl⟩ := pure_run_eq_ok.mp h
      cases hdone
      exact .inl ⟨rfl, .refl _⟩
  | succ fuel ih =>
      rw [translateFloatRange] at h
      split_ifs at h with hend
      · obtain rfl : pc = stop := by omega
        obtain ⟨hdone, rfl⟩ := pure_run_eq_ok.mp h
        cases hdone
        exact .inl ⟨rfl, .refl _⟩
      have hlt : pc < stop := by omega
      have hreads := hscope.reads pc hstart hlt
      simp only [bind_run_eq_ok, check_eq_ok] at h
      obtain ⟨-, _, ⟨hprotected, rfl⟩, h⟩ := h
      rcases ite_run_eq_ok.mp h with ⟨hreturn, h⟩ | ⟨-, h⟩
      · have hread : scope pc (p.fetch pc).A := by
          rcases hreturn with hopcode | hopcode
          all_goals exact hreads _ (by simp [Instruction.floatReads, hopcode])
        obtain ⟨hallow, rfl, rfl, hrecords⟩ := translateFloatReturn_spec hreturn hread h
        exact .inr ⟨rfl, hallow, pc, e, .refl _, hrecords⟩
      obtain ⟨⟨middle, next⟩, e₁, hinstruction, hrest⟩ := bind_run_eq_ok.mp h
      obtain ⟨hwrites, hfallback, rfl, hle⟩ := translateFloatInstruction_spec hlt hinstruction
      have hwidth := (p.fetch pc).width_pos
      have hfree : ¬kept (p.fetch pc).A := by
        intro hr
        obtain ⟨base, hbase, hlow, hhigh⟩ := hkept _ hr
        exact hprotected base hbase ⟨hwrites, hlow, hhigh⟩
      have hsimulates : Simulates code ofInteger p kept ⟨pc, scope pc, values, e.builder⟩
          ⟨pc + (p.fetch pc).width, scope (pc + (p.fetch pc).width), middle, e₁.builder⟩ :=
        simulates_instruction hreads (hscope.writes pc hstart hwrites hfallback) hfree hinstruction
      rcases ih (by omega) hle (by omega) hrest with
        ⟨hreturned, hsimulates'⟩ | ⟨hreturned, hallow, last, e₂, hsimulates', hrecords⟩
      · exact .inl ⟨hreturned, hsimulates.trans hsimulates'⟩
      · exact .inr ⟨hreturned, hallow, last, e₂, hsimulates.trans hsimulates', hrecords⟩

end instructions

end UniJit.Lua
