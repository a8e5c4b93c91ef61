import UniJit.Ir.EmittedValues
import UniJit.Lua.SymbolicOperands

/-!
# Running translated integer code

While a range of bytecode is translated, each register has a value. `HoldsWords` says that these
values hold what the machine has in its registers; it is asked of the registers that are `known`
only, because a loop leaves some registers of the machine with words that the translation does not
keep. A range takes a run of the code along with the machine (`follows_range`): the two end alike
if they end alike from where the range is left (`Follows`), and where the machine divides by zero,
the code leaves at the guard of that division (`Agrees`).
-/

namespace UniJit.Lua

open UniJit.Ir UniJit.Lib UniJit.Runtime LawfulScalarBuilder

/-! ## The two runs -/

namespace Vm

variable {p : Proto} {s s' : State} {o : Outcome}

/-- Steps lead from one state to another. -/
def Reaches (p : Proto) : State → State → Prop :=
  Relation.ReflTransGen fun s s' => step p s = some (.next s')

/-- A run that goes on to an end ends there. -/
lemma ends_of_reaches (h : Reaches p s s') (hends : Ends p s' o) : Ends p s o := by
  induction h using Relation.ReflTransGen.head_induction_on with
  | refl => exact hends
  | head hstep _ ih => exact .next hstep ih

/-- A step of an instruction that writes a register; the call of its metamethod is skipped. -/
structure Writes (p : Proto) (s s' : State) : Prop where
  writes : (p.fetch s.pc).opcode.writesDestination = true
  fallback : (p.fetch s.pc).width = 2 → (p.fetch (s.pc + 1)).opcode.callsMetamethod = true
  step : ∃ w, s' = ⟨s.pc + (p.fetch s.pc).width,
    Function.update s.registers (p.fetch s.pc).A (some w)⟩ ∧ step p s = some (.next s')

/-- A row of such steps. -/
def Row (p : Proto) : State → State → Prop := Relation.ReflTransGen (Writes p)

/-- A row of instructions is a run. -/
lemma Row.reaches (h : Row p s s') : Reaches p s s' := by
  induction h with
  | refl => exact .refl
  | tail _ hwrites ih =>
      obtain ⟨w, -, hstep⟩ := hwrites.step
      exact ih.tail hstep

/-- The analysis of the code before a loop keeps up with the machine. -/
lemma Known.row {args : List Word} (h : Row p s s')
    (hknown : Known (symbolicRegisters p s.pc) args s.registers) :
    Known (symbolicRegisters p s'.pc) args s'.registers := by
  induction h with
  | refl => exact hknown
  | tail _ hwrites ih =>
      obtain ⟨w, rfl, hstep⟩ := hwrites.step
      exact ih.of_write hwrites.writes hwrites.fallback hstep

end Vm

/-- A run of compiled code ends as the machine does: with its result, or at a guard whose site leads
back to the division by zero. -/
def Agrees (p : Proto) (s : Vm.State) : Post
  | .ok w _ => Vm.Ends p s (.returned w)
  | .error status _ => status.code = .runtimeExit ∧ status.message ∈ guardTexts ∧
      Vm.Ends p s (.divisionByZero (status.location % p.sizecode))

/-- Agreement with the rest of a run is agreement with the run. -/
lemma Agrees.of_reaches {p : Proto} {s s' : Vm.State} (h : Vm.Reaches p s s')
    {r : EStateM.Result Status Machine Word} (hr : Agrees p s' r) : Agrees p s r := by
  rcases r with ⟨w, m⟩ | ⟨status, m⟩
  · exact Vm.ends_of_reaches h hr
  · exact ⟨hr.1, hr.2.1, Vm.ends_of_reaches h hr.2.2⟩

/-- Agreement after a step is agreement before it. -/
lemma Agrees.of_step {p : Proto} {s s' : Vm.State} (h : Vm.step p s = some (.next s'))
    {r : EStateM.Result Status Machine Word} (hr : Agrees p s' r) : Agrees p s r :=
  hr.of_reaches (.single h)

/-- The values of the translation hold the words of the known registers. -/
def HoldsWords (known : Nat → Prop) (values : List Value) (registers : Registers) (bound : Nat)
    (s : Values) : Prop :=
  ∀ r, known r → (values.getD r .invalid).valid → (values.getD r .invalid).index < bound ∧
    registers r = some (s.word (values.getD r .invalid))

/-- Writing a computed word keeps the registers held. -/
lemma HoldsWords.write {known known' : Nat → Prop} {values : List Value} {registers : Registers}
    {bound bound' : Nat} {s s' : Values} {v : Value} {w : Word} {r : Nat}
    (h : HoldsWords known values registers bound s) (hkeeps : Keeps bound s s')
    (hle : bound ≤ bound') (hknown : ∀ r', known' r' → r' = r ∨ known r')
    (hindex : v.valid → v.index < bound') (hword : v.valid → s'.word v = w) :
    HoldsWords known' (values.set r v) (Function.update registers r (some w)) bound' s' := by
  intro r' hr' hvalid
  by_cases hr : r' = r
  · subst hr
    have hset : (values.set r' v).getD r' .invalid = v := by
      by_cases hlength : r' < values.length
      · rw [List.getD, List.getElem?_set_self hlength, Option.getD_some]
      · rw [List.getD, List.getElem?_eq_none (by simpa using hlength)] at hvalid
        exact absurd hvalid not_valid_invalid
    rw [hset] at hvalid ⊢
    exact ⟨hindex hvalid, by rw [Function.update_self, hword hvalid]⟩
  · have hset : (values.set r v).getD r' .invalid = values.getD r' .invalid := by
      rw [List.getD, List.getElem?_set_ne (Ne.symm hr), List.getD]
    rw [hset] at hvalid ⊢
    obtain ⟨hlt, hregister⟩ := h r' ((hknown r' hr').resolve_left hr) hvalid
    exact ⟨hlt.trans_le hle, by rw [Function.update_of_ne hr, hregister, hkeeps.word _ hlt]⟩

/-- Held registers stay held when less is known of them. -/
lemma HoldsWords.mono {known known' : Nat → Prop} {values : List Value}
    {registers registers' : Registers} {bound bound' : Nat} {s s' : Values}
    (h : HoldsWords known values registers bound s) (hknown : ∀ r, known' r → known r)
    (hregisters : ∀ r, known' r → registers' r = registers r) (hkeeps : Keeps bound s s')
    (hle : bound ≤ bound') : HoldsWords known' values registers' bound' s' := by
  intro r hr hvalid
  obtain ⟨hlt, hregister⟩ := h r (hknown r hr) hvalid
  exact ⟨hlt.trans_le hle, by rw [hregisters r hr, hregister, hkeeps.word _ hlt]⟩

/-- Where a translation stands: a position of the bytecode, the registers that are known there, the
values that they have, and the builder. -/
structure Point (B V : Type) where
  pc : Nat
  known : Nat → Prop
  values : List V
  builder : B

section points

variable {B : Type} [LawfulScalarBuilder B]

/-- The values hold the known registers. -/
def Point.Holds (a : Point B Value) (registers : Registers) (s : Values) : Prop :=
  HoldsWords a.known a.values registers (size a.builder) s

/-- Between two points the code and the machine go along with each other, and the machine does not
change the registers that are `kept`. -/
structure Follows {float : FloatUnit} (code : Code B float) (p : Proto) (kept : Nat → Prop)
    (a a' : Point B Value) : Prop where
  grows : Code.Grows a.builder a'.builder
  runs : code.Part a'.builder → ∀ s m registers, s.words.length = code.total →
    a.Holds registers s →
    (∀ s' registers', Vm.Row p ⟨a.pc, registers⟩ ⟨a'.pc, registers'⟩ →
      Keeps (size a.builder) s s' → (∀ r, kept r → registers' r = registers r) →
      a'.Holds registers' s' →
      code.Yields a'.builder s' m (Agrees p ⟨a'.pc, registers'⟩)) →
    code.Yields a.builder s m (Agrees p ⟨a.pc, registers⟩)

variable {float : FloatUnit} {code : Code B float} {p : Proto} {kept : Nat → Prop}
  {a a' a'' : Point B Value}

/-- No code follows no instruction. -/
lemma Follows.refl (a : Point B Value) : Follows code p kept a a :=
  ⟨.refl _, fun _ s _ registers _ hholds hnext =>
    hnext s registers .refl (.refl _ s) (fun _ _ => rfl) hholds⟩

/-- Code that follows on from other code. -/
lemma Follows.trans (h : Follows code p kept a a') (h' : Follows code p kept a' a'') :
    Follows code p kept a a'' where
  grows := h.grows.trans h'.grows
  runs := by
    intro hpart s m registers hlength hholds hnext
    refine h.runs (h'.grows.part hpart) s m registers hlength hholds
      fun s₁ registers₁ hrow₁ hkeeps₁ hkept₁ hholds₁ => ?_
    refine h'.runs hpart s₁ m registers₁ (hkeeps₁.length.trans hlength) hholds₁
      fun s₂ registers₂ hrow₂ hkeeps₂ hkept₂ hholds₂ => ?_
    exact hnext s₂ registers₂ (hrow₁.trans hrow₂) (hkeeps₁.trans hkeeps₂ h.grows.size_le)
      (fun r hr => (hkept₂ r hr).trans (hkept₁ r hr)) hholds₂

end points

/-! ## Emitted operations -/

section emitted

variable {B : Type} [LawfulScalarBuilder B] {float : FloatUnit} (code : Code B float) {p : Proto}
  {e e' : Emitter B} {lhs rhs v : Value}

/-- An emitted constant computes its word. -/
lemma computes_emitConstant {value : Word} (ready : Prop) (h : emitConstant value e = .ok v e') :
    code.Computes e.builder e'.builder v ready fun _ => value := by
  cases h
  exact Code.computes_append (fun _ _ => trivial) fun _ => rfl

/-- An emitted binary operation computes its value. -/
lemma computes_emitBinary {opcode : BinaryOpcode} (h : emitBinary opcode lhs rhs e = .ok v e') :
    code.Computes e.builder e'.builder v (accepts e.builder →
        lhs.index < size e.builder ∧ rhs.valid ∧ rhs.index < size e.builder)
      fun s => evaluateBinary float opcode (s.word lhs) (s.word rhs) := by
  cases h
  exact Code.computes_append (fun haccepts hready => hready haccepts) fun _ => rfl

/-- An emitted unary operation computes its value. -/
lemma computes_emitUnary {opcode : UnaryOpcode} (hopcode : opcode ≠ .byteSwap)
    (h : emitUnary opcode lhs e = .ok v e') :
    code.Computes e.builder e'.builder v (accepts e.builder → lhs.index < size e.builder)
      fun s => evaluateUnary opcode .k8 (s.word lhs) := by
  cases h
  refine Code.computes_append (fun haccepts hready => hready haccepts) fun s => ?_
  cases opcode
  case byteSwap => exact absurd rfl hopcode
  all_goals rfl

/-- What the operands of an arithmetic instruction are asked for. -/
abbrev Ready (b : B) (lhs rhs : Value) : Prop :=
  lhs.index < size b ∧ (accepts b → rhs.valid ∧ rhs.index < size b)

/-- A shift to the right is emitted as one to the left by the negated amount. -/
lemma computes_shiftRight (h : (emitUnary .negate rhs >>= emitBinary .shiftLeft lhs) e = .ok v e') :
    code.Computes e.builder e'.builder v (Ready e.builder lhs rhs)
      (fun s => luaVShiftl (s.word lhs) (0 - s.word rhs)) ∧ (v.valid → accepts e.builder) := by
  obtain ⟨amount, e₁, hnegate, hbinary⟩ := bind_run_eq_ok.mp h
  have hamount := computes_emitUnary code (by simp) hnegate
  have hv := computes_emitBinary code hbinary
  have hvalid : accepts e₁.builder → amount.valid := by
    cases hnegate
    exact fun haccepts => Code.valid_append.mpr (Code.accepts_of_append haccepts)
  have haccepts : accepts e₁.builder → accepts e.builder := by
    cases hnegate
    exact Code.accepts_of_append
  have hvalid' : v.valid → accepts e₁.builder := by
    cases hbinary
    exact Code.valid_append.mp
  refine ⟨(hamount.mono fun hready haccepts => (hready.2 haccepts).2).trans hv
    (fun hready h₁ => ?_) (fun h₁ => hvalid (hvalid' h₁)) fun hready s s' hkeeps hword => ?_,
    fun h₁ => haccepts (hvalid' h₁)⟩
  · exact ⟨hready.1.trans_le hamount.grows.size_le, hvalid h₁, hamount.index_lt (hvalid h₁)⟩
  · rw [hword, hkeeps.word lhs hready.1]
    exact shiftLeftWord_eq_luaVShiftl _ _

/-- A division leaves at its guard if the divisor is zero. -/
lemma attempts_emitFloor {pc : Nat} (hpc : pc < p.sizecode) {opcode : BinaryOpcode}
    (h : emitFloor p pc opcode lhs rhs e = .ok v e') : accepts e.builder ∧
      ∃ site : Word, site.toNat % p.sizecode = pc ∧
        code.Attempts e.builder e'.builder v
          (lhs.index < size e.builder ∧ rhs.valid ∧ rhs.index < size e.builder)
          (fun s => s.word rhs = 0) site
          fun s => evaluateBinary float opcode (s.word lhs) (s.word rhs) := by
  simp only [emitFloor, bind_run_eq_ok, check_eq_ok] at h
  obtain ⟨site, e₁, hsite, guard, e₂, hguard, -, _, ⟨hvalid, rfl⟩, hbinary⟩ := h
  cases hsite
  cases hguard
  simp only [ScalarBuilder.guardWordNonzero, ScalarBuilder.guard] at hvalid hbinary
  split_ifs at hvalid hbinary with hlarge
  · exact absurd hvalid not_valid_invalid
  have haccepts : accepts e.builder := Code.valid_append.mp hvalid
  have hv := computes_emitBinary code hbinary
  have hgrows : Code.Grows e.builder _ := Code.grows_append.trans hv.grows
  have hbound : maximumWord = 2 ^ 63 - 1 := rfl
  refine ⟨haccepts, BitVec.ofNat 64 (e.nextGuardOrdinal * p.sizecode + pc), ?_, ?_⟩
  · have hsite : e.nextGuardOrdinal * p.sizecode + pc < 2 ^ 64 := by omega
    rw [BitVec.toNat_ofNat, Nat.mod_eq_of_lt hsite, Proto.mod_sizecode hpc]
  · refine ⟨hgrows, hv.index_lt, fun hready hpart s m hlength hs => ?_,
      fun hready hpart s m hlength hs => ?_⟩
    · obtain ⟨s₁, hleads, -, hkeeps⟩ := Code.leads_append (w := 0) haccepts (hv.grows.part hpart)
        hlength hready.2.2 (if_neg hs) m
      have hsize : size e.builder ≤ size (ScalarBuilder.append e.builder .guardWordNonzero .word rhs
          .invalid (BitVec.ofNat 64 (e.nextGuardOrdinal * p.sizecode + pc))).2 :=
        Code.size_le_append
      obtain ⟨s₂, hleads', hkeeps', hword⟩ := hv.leads
        (fun _ => ⟨hready.1.trans_le hsize, hready.2.1, hready.2.2.trans_le hsize⟩) hpart s₁ m
        (hkeeps.length.trans hlength)
      refine ⟨s₂, hleads.trans hleads', hkeeps.trans hkeeps' hsize, fun hvalid' => ?_⟩
      rw [hword hvalid', hkeeps.word lhs hready.1, hkeeps.word rhs hready.2.2]
    · exact Code.exits_append haccepts (hv.grows.part hpart) hready.2.2 hs m

/-- An instruction with two operands. -/
def Instruction.Arithmetic (i : Instruction) : Prop :=
  i.opcode.writesDestination = true ∧ i.width = 2

/-- The code of an arithmetic instruction computes what the machine computes. The immediate of
`OP_SHRI` is negated before it, so it is left out here. -/
lemma attempts_emitArithmetic {pc : Nat} (hpc : pc < p.sizecode)
    (harithmetic : (p.fetch pc).Arithmetic) (hshift : (p.fetch pc).opcode ≠ .shrI)
    (h : emitArithmetic p pc (p.fetch pc).opcode lhs rhs e = .ok v e') :
    (v.valid ∨ (p.fetch pc).opcode.divides = true → accepts e.builder) ∧
      ∃ site : Word, ((p.fetch pc).opcode.divides = true → site.toNat % p.sizecode = pc) ∧
        code.Attempts e.builder e'.builder v (Ready e.builder lhs rhs)
          (fun s => (p.fetch pc).opcode.divides = true ∧ s.word rhs = 0) site
          fun s => (p.fetch pc).opcode.arithmetic (s.word lhs) (s.word rhs) := by
  have hplain : ∀ {opcode : OpCode}, opcode.divides = false →
      code.Computes e.builder e'.builder v (Ready e.builder lhs rhs)
        (fun s => opcode.arithmetic (s.word lhs) (s.word rhs)) ∧ (v.valid → accepts e.builder) →
      (v.valid ∨ opcode.divides = true → accepts e.builder) ∧
        ∃ site : Word, (opcode.divides = true → site.toNat % p.sizecode = pc) ∧
          code.Attempts e.builder e'.builder v (Ready e.builder lhs rhs)
            (fun s => opcode.divides = true ∧ s.word rhs = 0) site
            fun s => opcode.arithmetic (s.word lhs) (s.word rhs) := by
    rintro opcode hdivides ⟨hv, hvalid⟩
    rw [hdivides]
    exact ⟨fun h => hvalid (h.resolve_right (by simp)), 0, fun hfalse => (by cases hfalse),
      hv.attempts.congr id (fun s => by simp) fun _ _ => rfl⟩
  have hcomputes : ∀ {opcode : OpCode} {o : BinaryOpcode},
      emitBinary o lhs rhs e = .ok v e' →
      (∀ x y, evaluateBinary float o x y = opcode.arithmetic x y) →
      code.Computes e.builder e'.builder v (Ready e.builder lhs rhs)
        (fun s => opcode.arithmetic (s.word lhs) (s.word rhs)) ∧
          (v.valid → accepts e.builder) := by
    intro opcode o hbinary hvalue
    have hv := computes_emitBinary code hbinary
    simp only [hvalue] at hv
    refine ⟨hv.mono fun hready haccepts => ⟨hready.1, hready.2 haccepts⟩, ?_⟩
    cases hbinary
    exact Code.valid_append.mp
  have hfloor : ∀ {opcode : OpCode} {o : BinaryOpcode}, opcode.divides = true →
      emitFloor p pc o lhs rhs e = .ok v e' →
      (∀ x y, y ≠ 0 → evaluateBinary float o x y = opcode.arithmetic x y) →
      (v.valid ∨ opcode.divides = true → accepts e.builder) ∧
        ∃ site : Word, (opcode.divides = true → site.toNat % p.sizecode = pc) ∧
          code.Attempts e.builder e'.builder v (Ready e.builder lhs rhs)
            (fun s => opcode.divides = true ∧ s.word rhs = 0) site
            fun s => opcode.arithmetic (s.word lhs) (s.word rhs) := by
    intro opcode o hdivides hfloor hvalue
    obtain ⟨haccepts, site, hsite, hv⟩ := attempts_emitFloor code hpc hfloor
    exact ⟨fun _ => haccepts, site, fun _ => hsite, hv.congr
      (fun hready => ⟨hready.1, hready.2 haccepts⟩) (fun s => by simp [hdivides])
      fun s hs => hvalue _ _ hs⟩
  obtain ⟨hwrites, hwidth⟩ := harithmetic
  simp only [Instruction.width] at hwidth
  generalize (p.fetch pc).opcode = opcode at *
  cases opcode
  case shrI => exact absurd rfl hshift
  case addI | addK | add | subK | sub | mulK | mul | bandK | band | borK | bor | bxorK | bxor =>
    exact hplain rfl (hcomputes h fun _ _ => rfl)
  case shlI | shl => exact hplain rfl (hcomputes h fun _ _ => shiftLeftWord_eq_luaVShiftl _ _)
  case modK | mod => exact hfloor rfl h fun _ _ => floorModuloWord_eq_luaVMod
  case idivK | idiv => exact hfloor rfl h fun _ _ => floorDivideWord_eq_luaVIdiv
  case shr => exact hplain rfl (computes_shiftRight code h)
  case move | loadI | loadK | unm | bnot | loadF => cases hwidth
  all_goals cases hwrites

/-- A shift by a constant amount, which is emitted before it. -/
lemma computes_shiftConstant {value : Word} {c : Value} {e₁ : Emitter B}
    (hconstant : emitConstant value e = .ok c e₁)
    (hbinary : emitBinary .shiftLeft lhs c e₁ = .ok v e') :
    code.Computes e.builder e'.builder v (lhs.index < size e.builder)
      fun s => luaVShiftl (s.word lhs) value := by
  have hc := computes_emitConstant code (lhs.index < size e.builder) hconstant
  have hv := computes_emitBinary code hbinary
  have hvalid : accepts e₁.builder → c.valid := by
    cases hconstant
    exact fun haccepts => Code.valid_append.mpr (Code.accepts_of_append haccepts)
  have haccepts : v.valid → accepts e₁.builder := by
    cases hbinary
    exact Code.valid_append.mp
  refine hc.trans hv (fun hlhs h₁ => ?_) (fun h => hvalid (haccepts h)) fun hlhs s s' hkeeps hword => ?_
  · exact ⟨hlhs.trans_le hc.grows.size_le, hvalid h₁, hc.index_lt (hvalid h₁)⟩
  · rw [hkeeps.word lhs hlhs, hword]
    exact shiftLeftWord_eq_luaVShiftl _ _

/-- A shift of a constant, which is emitted before it. -/
lemma computes_shiftedConstant {value : Word} {c : Value} {e₁ : Emitter B}
    (hconstant : emitConstant value e = .ok c e₁)
    (hbinary : emitBinary .shiftLeft c rhs e₁ = .ok v e') :
    code.Computes e.builder e'.builder v (rhs.valid ∧ rhs.index < size e.builder)
      fun s => luaVShiftl value (s.word rhs) := by
  have hc := computes_emitConstant code (rhs.valid ∧ rhs.index < size e.builder) hconstant
  have hv := computes_emitBinary code hbinary
  have hvalid : accepts e₁.builder → c.valid := by
    cases hconstant
    exact fun haccepts => Code.valid_append.mpr (Code.accepts_of_append haccepts)
  have haccepts : v.valid → accepts e₁.builder := by
    cases hbinary
    exact Code.valid_append.mp
  refine hc.trans hv (fun hrhs h₁ => ?_) (fun h => hvalid (haccepts h)) fun hrhs s s' hkeeps hword => ?_
  · exact ⟨hc.index_lt (hvalid h₁), hrhs.1, hrhs.2.trans_le hc.grows.size_le⟩
  · rw [hkeeps.word rhs hrhs.2, hword]
    exact shiftLeftWord_eq_luaVShiftl _ _

/-- Arithmetic with a constant that is emitted before it. -/
lemma attempts_constant {pc : Nat} (hpc : pc < p.sizecode) (harithmetic : (p.fetch pc).Arithmetic)
    (hshift : (p.fetch pc).opcode ≠ .shrI) {value : Word} {c : Value} {e₁ : Emitter B}
    (hconstant : emitConstant value e = .ok c e₁)
    (h : emitArithmetic p pc (p.fetch pc).opcode lhs c e₁ = .ok v e') :
    ∃ site : Word, ((p.fetch pc).opcode.divides = true → site.toNat % p.sizecode = pc) ∧
      code.Attempts e.builder e'.builder v (lhs.index < size e.builder)
        (fun _ => (p.fetch pc).opcode.divides = true ∧ value = 0) site
        fun s => (p.fetch pc).opcode.arithmetic (s.word lhs) value := by
  obtain ⟨haccepts, site, hsite, hattempts⟩ :=
    attempts_emitArithmetic code hpc harithmetic hshift h
  have hc := computes_emitConstant code (lhs.index < size e.builder) hconstant
  have hvalid : accepts e₁.builder → c.valid := by
    cases hconstant
    exact fun haccepts => Code.valid_append.mpr (Code.accepts_of_append haccepts)
  refine ⟨site, hsite, hc.trans_attempts hattempts (fun hlhs => ?_)
    (fun h => hvalid (haccepts (.inl h))) (fun s s' _ hword => ?_) fun hlhs s s' hkeeps hword => ?_⟩
  · exact ⟨hlhs.trans_le hc.grows.size_le, fun h => ⟨hvalid h, hc.index_lt (hvalid h)⟩⟩
  · refine and_congr_right fun hdivides => ?_
    rw [hword (hvalid (haccepts (.inr hdivides)))]
  · rw [hkeeps.word lhs hlhs, hword]

/-! ## One instruction -/

section instructions

variable {code} {kept known known' : Nat → Prop} {pc next stop : Nat} {values values' : List Value}

/-- A register with a value, in the machine. -/
lemma HoldsWords.register {registers : Registers} {bound : Nat} {s : Values}
    (h : HoldsWords known values registers bound s) {r : Nat} (hknown : known r)
    (hr : validRegister values r) : (values.getD r .invalid).index < bound ∧
      registers r = some (s.word (values.getD r .invalid)) := h r hknown hr.2

/-- An instruction writes one register and is followed by the next one. -/
structure Takes (p : Proto) (pc : Nat) : Prop where
  writes : (p.fetch pc).opcode.writesDestination = true
  fallback : (p.fetch pc).width = 2 → (p.fetch (pc + 1)).opcode.callsMetamethod = true

omit [LawfulScalarBuilder B] in
/-- An instruction that is taken is a row of one step. -/
lemma Takes.row (h : Takes p pc) (hnext : next = pc + (p.fetch pc).width) {registers : Registers}
    {w : Word}
    (hstep : Vm.step p ⟨pc, registers⟩ =
      some (Vm.write ⟨pc, registers⟩ (p.fetch pc).A w next)) :
    Vm.Row p ⟨pc, registers⟩ ⟨next, Function.update registers (p.fetch pc).A (some w)⟩ := by
  subst hnext
  exact .single ⟨h.writes, h.fallback, w, rfl, hstep⟩

/-- An instruction that attempts to compute its result from the values of its operands. -/
lemma follows_of_attempts (htakes : Takes p pc) (hnext : next = pc + (p.fetch pc).width) {ready : Prop}
    {fails : Values → Prop} {site : Word} {w : Values → Word}
    (h : code.Attempts e.builder e'.builder v ready fails site w)
    (hknown : ∀ r, known' r → r = (p.fetch pc).A ∨ known r) (hkept : ¬kept (p.fetch pc).A)
    (hmachine : ∀ s registers, HoldsWords known values registers (size e.builder) s → ready ∧
      (fails s → site.toNat % p.sizecode = pc ∧
        Vm.step p ⟨pc, registers⟩ = some (.done (.divisionByZero pc))) ∧
      (¬fails s → Vm.step p ⟨pc, registers⟩ =
        some (Vm.write ⟨pc, registers⟩ (p.fetch pc).A (w s) next))) :
    Follows code p kept ⟨pc, known, values, e.builder⟩
      ⟨next, known', values.set (p.fetch pc).A v, e'.builder⟩ where
  grows := h.grows
  runs := by
    intro hpart s m registers hlength hholds hcontinues
    obtain ⟨hready, hfails, hruns⟩ := hmachine s registers hholds
    by_cases hs : fails s
    · obtain ⟨hsite, hstep⟩ := hfails hs
      refine h.exits hready hpart s m hlength hs _ fun text htext m' => ⟨rfl, htext, ?_⟩
      rw [hsite]
      exact .done hstep
    · obtain ⟨s', hleads, hkeeps, hv⟩ := h.leads hready hpart s m hlength hs
      refine hleads _ (code.mono (fun r => Agrees.of_step (hruns hs)) ?_)
      refine hcontinues s' _ (htakes.row hnext (hruns hs)) hkeeps
        (fun r hr => Function.update_of_ne ?_ _ _)
        (hholds.write hkeeps h.grows.size_le hknown h.index_lt hv)
      rintro rfl
      exact hkept hr

/-- An arithmetic instruction whose operands the machine has. -/
lemma follows_of_operands (htakes : Takes p pc) (harithmetic : (p.fetch pc).Arithmetic)
    {ready : Prop} {fails : Values → Prop} {site : Word} {w : Values → Word}
    (h : code.Attempts e.builder e'.builder v ready fails site w)
    (hsite : (p.fetch pc).opcode.divides = true → site.toNat % p.sizecode = pc)
    (hknown : ∀ r, known' r → r = (p.fetch pc).A ∨ known r) (hkept : ¬kept (p.fetch pc).A)
    (hmachine : ∀ s registers, HoldsWords known values registers (size e.builder) s → ready ∧
      ∃ x y, Vm.operands p ⟨pc, registers⟩ (p.fetch pc) = some (x, y) ∧
        (fails s ↔ (p.fetch pc).opcode.divides = true ∧ y = 0) ∧
        (¬fails s → (p.fetch pc).opcode.arithmetic x y = w s)) :
    Follows code p kept ⟨pc, known, values, e.builder⟩
      ⟨pc + 2, known', values.set (p.fetch pc).A v, e'.builder⟩ := by
  refine follows_of_attempts htakes (by rw [harithmetic.2]) h hknown hkept fun s registers hholds => ?_
  obtain ⟨hready, x, y, hoperands, hfails, hvalue⟩ := hmachine s registers hholds
  have hstep : Vm.step p ⟨pc, registers⟩ = Vm.arithmetic p ⟨pc, registers⟩ (p.fetch pc) := by
    obtain ⟨hwrites, hwidth⟩ := harithmetic
    simp only [Instruction.width] at hwidth
    simp only [Vm.step]
    rcases hopcode : (p.fetch pc).opcode
    all_goals rw [hopcode] at hwrites hwidth
    case move | loadI | loadK | unm | bnot | loadF => cases hwidth
    all_goals first | rfl | cases hwrites
  rw [Vm.arithmetic, hoperands] at hstep
  refine ⟨hready, fun hs => ?_, fun hs => ?_⟩
  · have hdivision := hfails.mp hs
    exact ⟨hsite hdivision.1, hstep.trans (if_pos hdivision)⟩
  · rw [← hvalue hs]
    exact hstep.trans (if_neg (mt hfails.mpr hs))

section cases

variable (hreads : ∀ r ∈ (p.fetch pc).reads, known r)
  (hknown : ∀ r, known' r → r = (p.fetch pc).A ∨ known r) (hkept : ¬kept (p.fetch pc).A)
  (htakes : Takes p pc)
include hreads hknown hkept htakes

/-- A unary instruction is followed. -/
lemma follows_unary {opcode : UnaryOpcode} (hopcode : opcode ≠ .byteSwap)
    (hwidth : (p.fetch pc).width = 1)
    (hpair : (p.fetch pc).reads = [(p.fetch pc).B])
    (hstep : ∀ registers x, registers (p.fetch pc).B = some x → Vm.step p ⟨pc, registers⟩ =
      some (Vm.write ⟨pc, registers⟩ (p.fetch pc).A (evaluateUnary opcode .k8 x) (pc + 1)))
    (h : translateUnary p pc values opcode e = .ok (values', next) e') :
    Follows code p kept ⟨pc, known, values, e.builder⟩ ⟨next, known', values', e'.builder⟩ := by
  simp only [translateUnary, bind_run_eq_ok, check_eq_ok, pure_run_eq_ok] at h
  obtain ⟨-, _, ⟨⟨-, hsource⟩, rfl⟩, v, e₁, hunary, hdone, rfl⟩ := h
  cases hdone
  have hv := computes_emitUnary code hopcode hunary
  refine follows_of_attempts htakes (by rw [hwidth]) hv.attempts hknown hkept
    fun s registers hholds => ?_
  obtain ⟨hlt, hx⟩ := hholds.register (hreads _ (by simp [hpair])) hsource
  exact ⟨fun _ => hlt, False.elim, fun _ => hstep registers _ hx⟩

/-- A move is followed. -/
lemma follows_move (hopcode : (p.fetch pc).opcode = .move)
    (hsource : validRegister values (p.fetch pc).B) :
    Follows code p kept ⟨pc, known, values, e.builder⟩
      ⟨pc + 1, known', values.set (p.fetch pc).A (values.getD (p.fetch pc).B .invalid),
        e.builder⟩ where
  grows := .refl _
  runs := by
    intro _ s m registers _ hholds hnext
    obtain ⟨hlt, hx⟩ := hholds.register (hreads _ (by simp [Instruction.reads, hopcode])) hsource
    have hstep : Vm.step p ⟨pc, registers⟩ = some (Vm.write ⟨pc, registers⟩ (p.fetch pc).A
        (s.word (values.getD (p.fetch pc).B .invalid)) (pc + 1)) := by
      simp only [Vm.step, hopcode, hx]
      rfl
    have hrow := htakes.row (by rw [Instruction.width, hopcode]) hstep
    refine code.mono (fun r => Agrees.of_step hstep) (hnext s _ hrow (.refl _ s) (fun r hr => ?_)
      (hholds.write (.refl _ s) le_rfl hknown (fun _ => hlt) fun _ => rfl))
    refine Function.update_of_ne ?_ _ _
    rintro rfl
    exact hkept hr

variable (hpc : pc < p.sizecode)
include hpc

/-- An instruction on two registers is followed. -/
lemma follows_registers {operandText fallbackText : String}
    (hopcode : (p.fetch pc).opcode = .add ∨ (p.fetch pc).opcode = .sub ∨
      (p.fetch pc).opcode = .mul ∨ (p.fetch pc).opcode = .mod ∨ (p.fetch pc).opcode = .idiv ∨
      (p.fetch pc).opcode = .band ∨ (p.fetch pc).opcode = .bor ∨ (p.fetch pc).opcode = .bxor ∨
      (p.fetch pc).opcode = .shl ∨ (p.fetch pc).opcode = .shr)
    (h : translateRegisters p pc stop values operandText fallbackText e = .ok (values', next) e') :
    Follows code p kept ⟨pc, known, values, e.builder⟩ ⟨next, known', values', e'.builder⟩ := by
  simp only [translateRegisters, checkFallback, bind_run_eq_ok, check_eq_ok, pure_run_eq_ok] at h
  obtain ⟨-, _, ⟨⟨-, hlhs, hrhs⟩, rfl⟩, v, e₁, hemit, -, _, ⟨-, rfl⟩, hdone, rfl⟩ := h
  cases hdone
  have harithmetic : (p.fetch pc).Arithmetic ∧ (p.fetch pc).opcode ≠ .shrI ∧
      (p.fetch pc).reads = [(p.fetch pc).B, (p.fetch pc).C] ∧
      ∀ s : Vm.State, Vm.operands p s (p.fetch pc) =
        (do pure (← s.registers (p.fetch pc).B, ← s.registers (p.fetch pc).C)) := by
    simp only [Instruction.Arithmetic, Instruction.width, Instruction.reads, Vm.operands]
    rcases hopcode with h | h | h | h | h | h | h | h | h | h
    all_goals
      rw [h]
      exact ⟨⟨rfl, rfl⟩, by simp, rfl, fun _ => rfl⟩
  obtain ⟨harithmetic, hshift, hpair, hoperands⟩ := harithmetic
  obtain ⟨-, site, hsite, hattempts⟩ := attempts_emitArithmetic code hpc harithmetic hshift
    hemit
  refine follows_of_operands htakes harithmetic hattempts hsite hknown hkept fun s registers hholds => ?_
  rw [hpair] at hreads
  obtain ⟨hlt, hx⟩ := hholds.register (hreads _ (by simp)) hlhs
  obtain ⟨hlt', hy⟩ := hholds.register (hreads _ (by simp)) hrhs
  refine ⟨⟨hlt, fun _ => ⟨hrhs.2, hlt'⟩⟩, _, _, ?_, Iff.rfl, fun _ => rfl⟩
  rw [hoperands]
  simp only [hx, hy]
  rfl

/-- An instruction on a register and a constant is followed. -/
lemma follows_constant {operandText integerText fallbackText : String}
    (hopcode : (p.fetch pc).opcode = .addK ∨ (p.fetch pc).opcode = .subK ∨
      (p.fetch pc).opcode = .mulK ∨ (p.fetch pc).opcode = .modK ∨ (p.fetch pc).opcode = .idivK ∨
      (p.fetch pc).opcode = .bandK ∨ (p.fetch pc).opcode = .borK ∨ (p.fetch pc).opcode = .bxorK)
    (h : translateConstant p pc stop values operandText integerText fallbackText e =
      .ok (values', next) e') :
    Follows code p kept ⟨pc, known, values, e.builder⟩ ⟨next, known', values', e'.builder⟩ := by
  simp only [translateConstant, checkFallback, bind_run_eq_ok, check_eq_ok] at h
  obtain ⟨-, _, ⟨⟨-, hlhs, -⟩, rfl⟩, hrest⟩ := h
  rcases hvalue : p.integerConstant (p.fetch pc).C with - | value
  · rw [hvalue] at hrest
    exact absurd hrest throw_run_ne_ok
  rw [hvalue] at hrest
  simp only [bind_run_eq_ok, check_eq_ok, pure_run_eq_ok] at hrest
  obtain ⟨c, e₁, hconstant, v, e₂, hemit, -, _, ⟨-, rfl⟩, hdone, rfl⟩ := hrest
  cases hdone
  have harithmetic : (p.fetch pc).Arithmetic ∧ (p.fetch pc).opcode ≠ .shrI ∧
      (p.fetch pc).reads = [(p.fetch pc).B] ∧
      ∀ s : Vm.State, Vm.operands p s (p.fetch pc) =
        (do pure (← s.registers (p.fetch pc).B, ← p.integerConstant (p.fetch pc).C)) := by
    simp only [Instruction.Arithmetic, Instruction.width, Instruction.reads, Vm.operands]
    rcases hopcode with h | h | h | h | h | h | h | h
    all_goals
      rw [h]
      exact ⟨⟨rfl, rfl⟩, by simp, rfl, fun _ => rfl⟩
  obtain ⟨harithmetic, hshift, hpair, hoperands⟩ := harithmetic
  obtain ⟨site, hsite, hattempts⟩ :=
    attempts_constant code hpc harithmetic hshift hconstant hemit
  refine follows_of_operands htakes harithmetic hattempts hsite hknown hkept fun s registers hholds => ?_
  rw [hpair] at hreads
  obtain ⟨hlt, hx⟩ := hholds.register (hreads _ (by simp)) hlhs
  refine ⟨hlt, _, _, ?_, Iff.rfl, fun _ => rfl⟩
  rw [hoperands]
  simp only [hx, hvalue]
  rfl

/-- An instruction on a register and an immediate is followed. -/
lemma follows_immediate {operandText fallbackText : String}
    (hopcode : (p.fetch pc).opcode = .addI ∨ (p.fetch pc).opcode = .shlI ∨
      (p.fetch pc).opcode = .shrI)
    (h : translateImmediate p pc stop values operandText fallbackText e = .ok (values', next) e') :
    Follows code p kept ⟨pc, known, values, e.builder⟩ ⟨next, known', values', e'.builder⟩ := by
  simp only [translateImmediate, checkFallback, bind_run_eq_ok, check_eq_ok] at h
  obtain ⟨-, _, ⟨⟨-, hsource⟩, rfl⟩, h⟩ := h
  have hreads' : known (p.fetch pc).B := hreads _ (by
    rcases hopcode with hopcode | hopcode | hopcode
    all_goals simp [Instruction.reads, hopcode])
  have hplain : ∀ {ready : Prop} {w : Values → Word} {v : Value} {e₂ : Emitter B},
      (p.fetch pc).Arithmetic → (p.fetch pc).opcode.divides = false →
      code.Computes e.builder e₂.builder v ready w →
      (∀ s registers x, registers (p.fetch pc).B = some x →
        x = s.word (values.getD (p.fetch pc).B .invalid) →
        (values.getD (p.fetch pc).B .invalid).index < size e.builder → ready ∧
        ∃ x' y', Vm.operands p ⟨pc, registers⟩ (p.fetch pc) = some (x', y') ∧
          (p.fetch pc).opcode.arithmetic x' y' = w s) →
      Follows code p kept ⟨pc, known, values, e.builder⟩
        ⟨pc + 2, known', values.set (p.fetch pc).A v, e₂.builder⟩ := by
    intro ready w v e₂ harithmetic hdivides hv hmachine
    refine follows_of_operands htakes harithmetic hv.attempts
      (fun h => by rw [hdivides] at h; cases h) hknown hkept fun s registers hholds => ?_
    obtain ⟨hlt, hx⟩ := hholds.register hreads' hsource
    obtain ⟨hready, x, y, hoperands, hw⟩ := hmachine s registers _ hx rfl hlt
    exact ⟨hready, x, y, hoperands, by simp [hdivides], fun _ => hw⟩
  rcases hopcode with hopcode | hopcode | hopcode
  all_goals
    rw [hopcode] at h
    simp only [bind_run_eq_ok, check_eq_ok, pure_run_eq_ok] at h
    obtain ⟨c, e₁, hconstant, v, e₂, hemit, -, _, ⟨-, rfl⟩, hdone, rfl⟩ := h
    cases hdone
    have harithmetic : (p.fetch pc).Arithmetic := by
      rw [Instruction.Arithmetic, Instruction.width, hopcode]
      exact ⟨rfl, rfl⟩
  · rw [← hopcode] at hemit
    obtain ⟨site, hsite, hattempts⟩ :=
      attempts_constant code hpc harithmetic (by simp [hopcode]) hconstant hemit
    refine follows_of_operands htakes harithmetic hattempts hsite hknown hkept fun s registers hholds => ?_
    obtain ⟨hlt, hx⟩ := hholds.register hreads' hsource
    refine ⟨hlt, _, BitVec.ofInt 64 (p.fetch pc).sC, ?_, Iff.rfl, fun _ => rfl⟩
    simp only [Vm.operands, hopcode, hx]
    rfl
  · refine hplain harithmetic (by rw [hopcode]; rfl) (computes_shiftedConstant code hconstant hemit)
      fun s registers x hx hword hlt =>
        ⟨⟨hsource.2, hlt⟩, BitVec.ofInt 64 (p.fetch pc).sC, x, ?_, ?_⟩
    · simp only [Vm.operands, hopcode, hx]
      rfl
    · rw [hopcode, hword]
      rfl
  · refine hplain harithmetic (by rw [hopcode]; rfl) (computes_shiftConstant code hconstant hemit)
      fun s registers x hx hword hlt =>
        ⟨hlt, x, BitVec.ofInt 64 (p.fetch pc).sC, ?_, ?_⟩
    · simp only [Vm.operands, hopcode, hx]
      rfl
    · rw [hopcode, hword]
      rfl

/-- One instruction that writes a register. -/
lemma follows_instruction {unsupported : String}
    (h : translateInstruction p unsupported pc stop values e = .ok (values', next) e') :
    Follows code p kept ⟨pc, known, values, e.builder⟩ ⟨next, known', values', e'.builder⟩ := by
  have hload : ∀ {value : Word} {v : Value}, (p.fetch pc).width = 1 →
      emitConstant value e = .ok v e' →
      (∀ registers, Vm.step p ⟨pc, registers⟩ =
        some (Vm.write ⟨pc, registers⟩ (p.fetch pc).A value (pc + 1))) →
      Follows code p kept ⟨pc, known, values, e.builder⟩
        ⟨pc + 1, known', values.set (p.fetch pc).A v, e'.builder⟩ := by
    intro value v hwidth hconstant hstep
    have hv := computes_emitConstant code True hconstant
    exact follows_of_attempts htakes (by rw [hwidth]) hv.attempts hknown hkept
      fun s registers _ => ⟨trivial, False.elim, fun _ => hstep registers⟩
  unfold translateInstruction at h
  rcases hopcode : (p.fetch pc).opcode
  all_goals simp only [hopcode] at h
  case move =>
    simp only [bind_run_eq_ok, check_eq_ok, pure_run_eq_ok] at h
    obtain ⟨-, _, ⟨⟨-, hsource⟩, rfl⟩, hdone, rfl⟩ := h
    cases hdone
    exact follows_move hreads hknown hkept htakes hopcode hsource
  case loadI =>
    simp only [bind_run_eq_ok, check_eq_ok, pure_run_eq_ok] at h
    obtain ⟨-, _, ⟨-, rfl⟩, v, _, hconstant, hdone, rfl⟩ := h
    cases hdone
    refine hload (by rw [Instruction.width, hopcode]) hconstant fun registers => ?_
    simp only [Vm.step, hopcode]
    rfl
  case loadK =>
    simp only [bind_run_eq_ok, check_eq_ok] at h
    obtain ⟨-, _, ⟨-, rfl⟩, hrest⟩ := h
    rcases hvalue : p.integerConstant (p.fetch pc).Bx with - | value
    · rw [hvalue] at hrest
      exact absurd hrest throw_run_ne_ok
    rw [hvalue] at hrest
    simp only [bind_run_eq_ok, pure_run_eq_ok] at hrest
    obtain ⟨v, _, hconstant, hdone, rfl⟩ := hrest
    cases hdone
    refine hload (by rw [Instruction.width, hopcode]) hconstant fun registers => ?_
    simp only [Vm.step, hopcode, hvalue]
    rfl
  case addI | shlI | shrI =>
    exact follows_immediate hreads hknown hkept htakes hpc (by simp [hopcode]) h
  case addK | subK | mulK | modK | idivK | bandK | borK | bxorK =>
    exact follows_constant hreads hknown hkept htakes hpc (by simp [hopcode]) h
  case add | sub | mul | mod | idiv | band | bor | bxor | shl | shr =>
    exact follows_registers hreads hknown hkept htakes hpc (by simp [hopcode]) h
  case unm | bnot =>
    refine follows_unary hreads hknown hkept htakes (by simp) (by rw [Instruction.width, hopcode])
      (by simp [Instruction.reads, hopcode]) (fun registers x hx => ?_) h
    simp only [Vm.step, hopcode, hx]
    rfl
  all_goals exact absurd h throw_run_ne_ok

end cases

/-! ## Ranges -/

/-- The registers that are known at the positions of a range: what an instruction reads is known,
and an instruction makes nothing known but the register that it writes. -/
structure Scope (p : Proto) (start stop : Nat) (known : Nat → Nat → Prop) : Prop where
  reads : ∀ pc, start ≤ pc → pc < stop → ∀ r ∈ (p.fetch pc).reads, known pc r
  writes : ∀ pc, start ≤ pc → (p.fetch pc).opcode.writesDestination = true →
    ((p.fetch pc).width = 2 → (p.fetch (pc + 1)).opcode.callsMetamethod = true) →
    ∀ r, known (pc + (p.fetch pc).width) r → r = (p.fetch pc).A ∨ known pc r

lemma Scope.all (p : Proto) (start stop : Nat) : Scope p start stop fun _ _ => True :=
  ⟨fun _ _ _ _ _ => trivial, fun _ _ _ _ _ _ => .inr trivial⟩

/-- A return that the translation records. -/
structure Returns (p : Proto) (a : Point B Value) (b' : B) : Prop where
  opcode : (p.fetch a.pc).opcode = .ret1 ∨
    (p.fetch a.pc).opcode = .ret ∧ (p.fetch a.pc).B = 2 ∧ (p.fetch a.pc).k = false
  known : a.known (p.fetch a.pc).A
  value : validRegister a.values (p.fetch a.pc).A
  recorded : ScalarBuilder.setReturn a.builder (a.values.getD (p.fetch a.pc).A .invalid) = .ok b'

/-- The machine returns the word of the recorded value. -/
lemma Returns.agrees {a : Point B Value} {b' : B} (h : Returns p a b') {registers : Registers}
    {s : Values} (hholds : a.Holds registers s) (m : Machine) :
    Agrees p ⟨a.pc, registers⟩ (.ok (s.word (a.values.getD (p.fetch a.pc).A .invalid)) m) := by
  obtain ⟨-, hvalue⟩ := hholds.register h.known h.value
  apply Vm.Ends.done
  rcases h.opcode with hopcode | ⟨hopcode, hfixed⟩
  · simp only [Vm.step, hopcode, hvalue]
    rfl
  · simp only [Vm.step, hopcode, if_pos hfixed, hvalue]
    rfl

/-- A return gives its register's word. -/
lemma returns_of_translateReturn {c : Prop} [Decidable c] {message : String} {returned : Bool}
    (h : translateReturn p pc values c message e = .ok (values', returned) e')
    (hopcode : (p.fetch pc).opcode = .ret1 ∨
      (p.fetch pc).opcode = .ret ∧ (c → (p.fetch pc).B = 2 ∧ (p.fetch pc).k = false))
    (hknown : known (p.fetch pc).A) :
    c ∧ values' = values ∧ returned = true ∧ Returns p ⟨pc, known, values, e.builder⟩ e'.builder := by
  simp only [translateReturn, bind_run_eq_ok, check_eq_ok, attempt_eq_ok, pure_run_eq_ok] at h
  obtain ⟨-, _, ⟨⟨hc, hvalue⟩, rfl⟩, -, _, ⟨b', hattempt, rfl⟩, hdone, rfl⟩ := h
  cases hdone
  refine ⟨hc, rfl, rfl, hopcode.imp_right fun h => ⟨h.1, h.2 hc⟩, hknown, hvalue, ?_⟩
  rcases hset : ScalarBuilder.setReturn e.builder
    (values.getD (p.fetch pc).A .invalid) with status | b
  · rw [hset] at hattempt
    cases hattempt
  · rw [hset] at hattempt
    cases hattempt
    rfl

variable (code kept) in
/-- A range is passed to its end, or to a return in it. -/
lemma follows_range {rules : RangeRules} {start fuel : Nat} {returned : Bool}
    {scope : Nat → Nat → Prop} (hscope : Scope p start stop scope) (hstop : stop ≤ p.sizecode)
    (hkept : ∀ r, kept r → ∃ base ∈ rules.protectedStateBase, base ≤ r ∧ r ≤ base + 2)
    (hstart : start ≤ pc) (hpc : pc ≤ stop) (hfuel : stop ≤ pc + fuel)
    (h : translateRange p rules stop fuel pc values e = .ok (values', returned) e') :
    (returned = false ∧ Follows code p kept ⟨pc, scope pc, values, e.builder⟩
        ⟨stop, scope stop, values', e'.builder⟩) ∨
      (returned = true ∧ rules.allowReturn = true ∧ ∃ last, ∃ e₁ : Emitter B,
        Follows code p kept ⟨pc, scope pc, values, e.builder⟩
          ⟨last, scope last, values', e₁.builder⟩ ∧
        Returns p ⟨last, scope last, values', e₁.builder⟩ e'.builder) := by
  induction fuel generalizing pc values e with
  | zero =>
      obtain rfl : pc = stop := by omega
      obtain ⟨hdone, rfl⟩ := pure_run_eq_ok.mp h
      cases hdone
      exact .inl ⟨rfl, .refl _⟩
  | succ fuel ih =>
      rw [translateRange] at h
      split_ifs at h with hend
      · obtain rfl : pc = stop := by omega
        obtain ⟨hdone, rfl⟩ := pure_run_eq_ok.mp h
        cases hdone
        exact .inl ⟨rfl, .refl _⟩
      have hlt : pc < stop := by omega
      have hreads := hscope.reads pc hstart hlt
      have hread : (p.fetch pc).opcode = .ret1 ∨ (p.fetch pc).opcode = .ret →
          scope pc (p.fetch pc).A := by
        rintro (hopcode | hopcode)
        all_goals exact hreads _ (by simp [Instruction.reads, hopcode])
      simp only [bind_run_eq_ok, check_eq_ok] at h
      obtain ⟨-, _, ⟨hprotected, rfl⟩, h⟩ := h
      rcases ite_run_eq_ok.mp h with ⟨hopcode, h⟩ | ⟨-, h⟩
      · obtain ⟨hallow, rfl, rfl, hreturns⟩ :=
          returns_of_translateReturn h (.inl hopcode) (hread (.inl hopcode))
        exact .inr ⟨rfl, hallow, pc, e, .refl _, hreturns⟩
      rcases ite_run_eq_ok.mp h with ⟨hopcode, h⟩ | ⟨-, h⟩
      · obtain ⟨hallow, rfl, rfl, hreturns⟩ :=
          returns_of_translateReturn h (.inr ⟨hopcode, fun hc => hc.2⟩) (hread (.inr hopcode))
        exact .inr ⟨rfl, hallow.1, pc, e, .refl _, hreturns⟩
      obtain ⟨⟨middle, next⟩, e₁, hinstruction, hrest⟩ := bind_run_eq_ok.mp h
      obtain ⟨haccepts, rfl, -⟩ := translateInstruction_spec hlt hinstruction
      have hwidth := (p.fetch pc).width_pos
      have hfits := haccepts.fits
      have hfree : ¬kept (p.fetch pc).A := by
        intro hr
        obtain ⟨base, hbase, hlow, hhigh⟩ := hkept _ hr
        exact hprotected base hbase ⟨haccepts.writes, hlow, hhigh⟩
      have hfollows : Follows code p kept ⟨pc, scope pc, values, e.builder⟩
          ⟨pc + (p.fetch pc).width, scope (pc + (p.fetch pc).width), middle, e₁.builder⟩ :=
        follows_instruction hreads (hscope.writes pc hstart haccepts.writes haccepts.fallback) hfree
          ⟨haccepts.writes, haccepts.fallback⟩ (hlt.trans_le hstop) hinstruction
      rcases ih (by omega) hfits (by omega) hrest with
        ⟨hreturned, hfollows'⟩ | ⟨hreturned, hallow, last, e₂, hfollows', hreturns⟩
      · exact .inl ⟨hreturned, hfollows.trans hfollows'⟩
      · exact .inr ⟨hreturned, hallow, last, e₂, hfollows.trans hfollows', hreturns⟩

end instructions

end emitted

end UniJit.Lua
