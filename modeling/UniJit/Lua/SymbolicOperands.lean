import UniJit.Lua.LoopRuns

/-!
# What is known before a loop

The analysis of a loop follows the code before it with a constant or a parameter for each register,
as far as it knows one (`symbolicRegisters`). Whatever it knows is what the machine holds when it
arrives (`Known`), and so its folding computes what the machine computes.
-/

namespace UniJit.Lua

open UniJit.Ir UniJit.Lib

/-- The value of an operand for some arguments. -/
def Symbolic.resolve (args : List Word) : Symbolic → Option Word
  | .unknown => none
  | .constant value => some value
  | .parameter index => args[index]?

/-- A constant symbol resolves to its value. -/
lemma Symbolic.resolve_of_constant? {symbol : Symbolic} {value : Word}
    (h : symbol.constant? = some value) (args : List Word) :
    symbol.resolve args = some value := by
  cases symbol with
  | unknown => cases h
  | constant value => exact h
  | parameter index => cases h

/-- The symbol of a known constant resolves to it only. -/
lemma Symbolic.resolve_ofConstant {o : Option Word} {args : List Word} {v : Word} :
    (Symbolic.ofConstant o).resolve args = some v ↔ o = some v := by
  cases o <;> rfl

/-! ## Folding -/

/-- The source's unsigned test finds -1. -/
lemma add_one_le_one_iff {n : Word} (h : n ≠ 0) : (n + 1).toNat ≤ 1 ↔ n = -1 := by
  have hne : n.toNat ≠ 0 := fun hzero => h (BitVec.eq_of_toNat_eq hzero)
  have hone : (1 : Word).toNat = 1 := rfl
  have hminus : (-1 : Word).toNat = 2 ^ 64 - 1 := by decide
  have hlt := n.isLt
  rw [BitVec.toNat_add, hone]
  constructor
  · intro hle
    apply BitVec.eq_of_toNat_eq
    omega
  · rintro rfl
    omega

/-- Away from zero the folded division is Lua's. -/
lemma floorDivideWord_eq_luaVIdiv {x y : Word} (h : y ≠ 0) :
    floorDivideWord x y = luaVIdiv x y := by
  simp only [floorDivideWord, luaVIdiv, if_neg h, add_one_le_one_iff h]

/-- Away from zero the folded modulo is Lua's. -/
lemma floorModuloWord_eq_luaVMod {x y : Word} (h : y ≠ 0) :
    floorModuloWord x y = luaVMod x y := by
  simp only [floorModuloWord, luaVMod, h, false_or, add_one_le_one_iff h]

/-- The folded shift is Lua's. -/
lemma shiftLeftWord_eq_luaVShiftl (x y : Word) : shiftLeftWord x y = luaVShiftl x y := by
  have hsign : y.toInt = if 2 * y.toNat < 2 ^ 64 then (y.toNat : Int) else y.toNat - 2 ^ 64 :=
    BitVec.toInt_eq_toNat_cond y
  have hlt := y.isLt
  unfold shiftLeftWord luaVShiftl
  by_cases hneg : y.toInt < 0
  · have hmagnitude : (0 - y).toNat = 2 ^ 64 - y.toNat := by
      rw [BitVec.toNat_sub]
      have hzero : (0 : Word).toNat = 0 := rfl
      split_ifs at hsign <;> omega
    have hlarge : 64 ≤ (0 - y).toNat ↔ y.toInt ≤ -64 := by
      split_ifs at hsign <;> omega
    simp only [if_pos hneg, hlarge]
  · have hlarge : 64 ≤ y.toNat ↔ 64 ≤ y.toInt := by
      split_ifs at hsign <;> omega
    simp only [if_neg hneg, hlarge]

/-! ## Parameters -/

/-- A parameter of a prototype, if it is one. -/
def Symbolic.Within (numparams : Nat) : Symbolic → Prop
  | .parameter index => index < numparams
  | _ => True

/-- A constant names no parameter. -/
lemma Symbolic.Within.ofConstant (numparams : Nat) (o : Option Word) :
    (Symbolic.ofConstant o).Within numparams := by
  cases o <;> trivial

/-- A symbolic result names parameters only. -/
lemma symbolicResult_within {p : Proto} {i : Instruction} {registers : List Symbolic}
    {symbol : Symbolic} (h : ∀ known ∈ registers, known.Within p.numparams)
    (hresult : symbolicResult p i registers = some symbol) : symbol.Within p.numparams := by
  have hsource : ∀ r, (registers.getD r .unknown).Within p.numparams := by
    intro r
    rw [List.getD]
    rcases hr : registers[r]? with - | known
    · trivial
    · exact h known (List.mem_of_getElem? hr)
  unfold symbolicResult at hresult
  rcases hopcode : i.opcode
  all_goals
    rw [hopcode] at hresult
    cases hresult
  case move => exact hsource i.B
  case loadI => trivial
  all_goals first | trivial | exact .ofConstant _ _

/-- Symbolic registers name parameters only. -/
lemma symbolicRegisters_within {p : Proto} (pc : Nat) :
    ∀ symbol ∈ symbolicRegisters p pc, symbol.Within p.numparams := by
  induction pc with
  | zero =>
      intro symbol hmem
      obtain ⟨r, -, rfl⟩ := List.mem_map.mp hmem
      split_ifs with hparameter
      · exact hparameter
      · trivial
  | succ pc ih =>
      intro symbol hmem
      rw [symbolicRegisters] at hmem
      rcases hresult : symbolicResult p (p.fetch pc) (symbolicRegisters p pc) with - | result
      · rw [hresult] at hmem
        exact ih symbol hmem
      · rw [hresult] at hmem
        rcases List.mem_or_eq_of_mem_set hmem with hmem | rfl
        · exact ih symbol hmem
        · exact symbolicResult_within ih hresult

/-- Whatever is known of a register has a value. -/
lemma resolves_of_known {p : Proto} {pc r : Nat} {args : List Word}
    (hargs : args.length = p.numparams)
    (hknown : (symbolicRegisters p pc).getD r .unknown ≠ .unknown) :
    ∃ v, ((symbolicRegisters p pc).getD r .unknown).resolve args = some v := by
  have hwithin : ((symbolicRegisters p pc).getD r .unknown).Within p.numparams := by
    rw [List.getD]
    rcases hr : (symbolicRegisters p pc)[r]? with - | known
    · trivial
    · exact symbolicRegisters_within pc known (List.mem_of_getElem? hr)
  rcases hsymbol : (symbolicRegisters p pc).getD r .unknown with - | value | index
  · exact absurd hsymbol hknown
  · exact ⟨value, rfl⟩
  · rw [hsymbol] at hwithin
    exact ⟨_, List.getElem?_eq_getElem (hargs.symm ▸ hwithin)⟩

/-- What is known behind an instruction; the call of its metamethod changes nothing. -/
lemma symbolicRegisters_behind {p : Proto} {pc : Nat} {symbol : Symbolic}
    (hresult : symbolicResult p (p.fetch pc) (symbolicRegisters p pc) = some symbol)
    (hfallback : (p.fetch pc).width = 2 → (p.fetch (pc + 1)).opcode.callsMetamethod = true) :
    symbolicRegisters p (pc + (p.fetch pc).width) =
      (symbolicRegisters p pc).set (p.fetch pc).A symbol := by
  have hnext : symbolicRegisters p (pc + 1) = (symbolicRegisters p pc).set (p.fetch pc).A symbol := by
    rw [symbolicRegisters, hresult]
  rcases (p.fetch pc).width_eq with hwidth | hwidth
  · rw [hwidth, hnext]
  · have hcalls := hfallback hwidth
    have hnone : ∀ registers, symbolicResult p (p.fetch (pc + 1)) registers = none := by
      intro registers
      unfold symbolicResult
      rcases hopcode : (p.fetch (pc + 1)).opcode
      all_goals simp [OpCode.callsMetamethod, hopcode] at hcalls
      all_goals rfl
    have hskip : symbolicRegisters p (pc + 2) = symbolicRegisters p (pc + 1) := by
      rw [symbolicRegisters, hnone]
    rw [hwidth, hskip, hnext]

/-! ## Soundness -/

namespace Vm

/-- Each register holds what is known of it. -/
def Known (symbols : List Symbolic) (args : List Word) (registers : Registers) : Prop :=
  ∀ r v, (symbols.getD r .unknown).resolve args = some v → registers r = some v

/-- At the start the symbols stand for the registers. -/
lemma known_start (p : Proto) (args : List Word) :
    Known (symbolicRegisters p 0) args (start args).registers := by
  intro r v hv
  rw [symbolicRegisters, List.getD, List.getElem?_map] at hv
  by_cases hr : r < p.maxstacksize
  · rw [List.getElem?_range hr] at hv
    by_cases hparameter : r < p.numparams
    · simp only [Option.map_some, if_pos hparameter, Option.getD_some] at hv
      exact hv
    · simp [hparameter, Symbolic.resolve] at hv
  · rw [List.getElem?_eq_none (by simpa using hr)] at hv
    simp [Symbolic.resolve] at hv

section steps

variable {p : Proto} {args : List Word} {s : State} {w : Word} {symbols : List Symbolic}

/-- A constant symbol stands for its value. -/
lemma Known.constant (h : Known symbols args s.registers) {r : Nat} {value : Word}
    (hvalue : (symbols.getD r .unknown).constant? = some value) : s.registers r = some value :=
  h r value (Symbolic.resolve_of_constant? hvalue args)

/-- A write keeps the symbols right when the new symbol stands for what is written. -/
lemma Known.write (h : Known symbols args s.registers) {r : Nat} {symbol : Symbolic}
    (hsymbol : ∀ v, symbol.resolve args = some v → v = w) :
    Known (symbols.set r symbol) args (Function.update s.registers r (some w)) := by
  intro r' v hv
  by_cases hr : r' = r
  · subst hr
    rw [Function.update_self]
    by_cases hlength : r' < symbols.length
    · rw [List.getD, List.getElem?_set_self hlength] at hv
      rw [hsymbol v hv]
    · rw [List.getD, List.getElem?_eq_none (by simpa using hlength)] at hv
      cases hv
  · rw [Function.update_of_ne hr]
    apply h r' v
    simpa [List.getD, List.getElem?_set, Ne.symm hr] using hv

/-- A register after a step. -/
def Transition.registerAt (r : Nat) : Transition → Option Word
  | .next s => s.registers r
  | .done _ => none

/-- Two equal writes have written one word. -/
lemma eq_of_write {pc pc' r : Nat} {v : Word} (h : write s r v pc = write s r w pc') : v = w := by
  have hregisters := congrArg (Transition.registerAt r) h
  simpa [write, Transition.registerAt] using hregisters

/-- An arithmetic instruction writes what it computes from its operands. -/
lemma arithmetic_of_step {x y : Word} (hwidth : (p.fetch s.pc).width = 2)
    (hwrites : (p.fetch s.pc).opcode.writesDestination = true)
    (hoperands : operands p s (p.fetch s.pc) = some (x, y))
    (hstep : step p s = some (write s (p.fetch s.pc).A w (s.pc + (p.fetch s.pc).width))) :
    w = (p.fetch s.pc).opcode.arithmetic x y ∧
      ¬((p.fetch s.pc).opcode.divides = true ∧ y = 0) := by
  have harithmetic : step p s = arithmetic p s (p.fetch s.pc) := by
    unfold step
    rcases hopcode : (p.fetch s.pc).opcode
    all_goals simp only [Instruction.width, hopcode, OfNat.one_ne_ofNat] at hwidth
    all_goals simp only [OpCode.writesDestination, hopcode, Bool.false_eq_true] at hwrites
    all_goals simp only [hopcode]
  rw [harithmetic, arithmetic, hoperands] at hstep
  by_cases hzero : (p.fetch s.pc).opcode.divides = true ∧ y = 0
  · have hdone := (if_pos hzero).symm.trans hstep
    cases hdone
  · have hdone := (if_neg hzero).symm.trans hstep
    exact ⟨(eq_of_write (Option.some.inj hdone)).symm, hzero⟩

/-- Before the loop, an arithmetic instruction is folded as the machine computes it. -/
lemma folded_of_operands {x y v : Word} (hwidth : (p.fetch s.pc).width = 2)
    (hwrites : (p.fetch s.pc).opcode.writesDestination = true)
    (hstep : step p s = some (write s (p.fetch s.pc).A w (s.pc + (p.fetch s.pc).width)))
    (hoperands : operands p s (p.fetch s.pc) = some (x, y))
    (hfolded : (p.fetch s.pc).opcode.arithmetic x y = v) : v = w := by
  rw [(arithmetic_of_step hwidth hwrites hoperands hstep).1, hfolded]

/-- Whatever is known of a result is what the machine writes. -/
lemma symbolicResult_of_step (h : Known symbols args s.registers)
    (hwrites : (p.fetch s.pc).opcode.writesDestination = true)
    (hstep : step p s = some (write s (p.fetch s.pc).A w (s.pc + (p.fetch s.pc).width))) :
    ∃ symbol, symbolicResult p (p.fetch s.pc) symbols = some symbol ∧
      ∀ v, symbol.resolve args = some v → v = w := by
  have hfold : ∀ x y v, (p.fetch s.pc).width = 2 →
      operands p s (p.fetch s.pc) = some (x, y) →
      (p.fetch s.pc).opcode.arithmetic x y = v → v = w := fun x y v hwidth hxy hfolded =>
    folded_of_operands hwidth hwrites hstep hxy hfolded
  have hwritten : ∀ v, step p s = some (write s (p.fetch s.pc).A v (s.pc + 1)) → v = w :=
    fun v hv => eq_of_write (Option.some.inj (hv.symm.trans hstep))
  rcases hopcode : (p.fetch s.pc).opcode
  all_goals simp only [OpCode.writesDestination, hopcode, Bool.false_eq_true] at hwrites
  all_goals refine ⟨_, by simp only [symbolicResult, hopcode]; rfl, fun v hv => ?_⟩
  all_goals
    simp only [Instruction.width, hopcode, operands, OpCode.arithmetic, step] at hfold hwritten
  case move => exact hwritten v (by rw [h _ v hv]; rfl)
  case loadI =>
    cases hv
    exact hwritten _ rfl
  case addI | addK | subK | mulK | add | sub | mul => cases hv
  all_goals
    simp only [Symbolic.resolve_ofConstant, Option.bind_eq_bind, Option.bind_eq_some_iff,
      Option.pure_def, Option.some.injEq] at hv
  case loadK => exact hwritten v (by rw [hv]; rfl)
  case unm | bnot =>
    obtain ⟨x, hx, rfl⟩ := hv
    exact hwritten _ (by rw [h.constant hx]; rfl)
  case bandK | borK | bxorK =>
    obtain ⟨x, hx, y, hy, rfl⟩ := hv
    exact hfold x y _ trivial (by rw [h.constant hx, hy]; rfl) rfl
  case band | bor | bxor =>
    obtain ⟨x, hx, y, hy, rfl⟩ := hv
    exact hfold x y _ trivial (by rw [h.constant hx, h.constant hy]; rfl) rfl
  case modK | idivK =>
    obtain ⟨x, hx, y, hy, hv⟩ := hv
    split_ifs at hv with hzero
    cases hv
    apply hfold x y _ trivial (by rw [h.constant hx, hy]; rfl)
    first
    | exact (floorModuloWord_eq_luaVMod hzero).symm
    | exact (floorDivideWord_eq_luaVIdiv hzero).symm
  case mod | idiv =>
    obtain ⟨x, hx, y, hy, hv⟩ := hv
    split_ifs at hv with hzero
    cases hv
    apply hfold x y _ trivial (by rw [h.constant hx, h.constant hy]; rfl)
    first
    | exact (floorModuloWord_eq_luaVMod hzero).symm
    | exact (floorDivideWord_eq_luaVIdiv hzero).symm
  case shlI =>
    obtain ⟨x, hx, rfl⟩ := hv
    exact hfold _ x _ trivial (by rw [h.constant hx]; rfl) (shiftLeftWord_eq_luaVShiftl _ _).symm
  case shrI =>
    obtain ⟨x, hx, rfl⟩ := hv
    exact hfold x _ _ trivial (by rw [h.constant hx]; rfl) (shiftLeftWord_eq_luaVShiftl _ _).symm
  case shl | shr =>
    obtain ⟨x, hx, y, hy, rfl⟩ := hv
    exact hfold x y _ trivial (by rw [h.constant hx, h.constant hy]; rfl)
      (shiftLeftWord_eq_luaVShiftl _ _).symm

/-- The analysis keeps up with the machine. -/
lemma Known.of_write (h : Known (symbolicRegisters p s.pc) args s.registers)
    (hwrites : (p.fetch s.pc).opcode.writesDestination = true)
    (hfallback : (p.fetch s.pc).width = 2 → (p.fetch (s.pc + 1)).opcode.callsMetamethod = true)
    (hstep : Vm.step p s =
      some (Vm.write s (p.fetch s.pc).A w (s.pc + (p.fetch s.pc).width))) :
    Known (symbolicRegisters p (s.pc + (p.fetch s.pc).width)) args
      (Function.update s.registers (p.fetch s.pc).A (some w)) := by
  obtain ⟨symbol, hresult, hsymbol⟩ := symbolicResult_of_step h hwrites hstep
  rw [symbolicRegisters_behind hresult hfallback]
  exact h.write hsymbol

/-- One instruction keeps the symbols right. -/
lemma Known.step {protectedBase : Option Nat} {stop : Nat}
    (h : Known (symbolicRegisters p s.pc) args s.registers)
    (hwritesAt : WritesAt p protectedBase stop s w) :
    Known (symbolicRegisters p (s.pc + (p.fetch s.pc).width)) args
      (Function.update s.registers (p.fetch s.pc).A (some w)) := by
  obtain ⟨⟨values, haccepts⟩, -, hstep⟩ := hwritesAt
  exact h.of_write haccepts.writes haccepts.fallback hstep

end steps

/-- The code before an accepted loop leads to it with what is known of its operands, unless it
divides by zero. -/
lemma run_setup {p : Proto} {l : LoopSite} {guarded : Option GuardedBodyPlan}
    (haccepted : AcceptedLoop p l guarded) {args : List Word} (hargs : args.length = p.numparams) :
    (∃ s, Leads p (start args) 0 s ∧ s.pc = l.preparationPc ∧ Defined l.registers s.registers ∧
        Known (symbolicRegisters p l.preparationPc) args s.registers) ∨
      ∃ q, Iterates p (start args) (.divisionByZero q) 0 := by
  obtain ⟨values, hparameters, hstraight⟩ := haccepted.setup
  have hdefined : Defined values (start args).registers := by
    intro r hvalid
    have hr := hparameters r hvalid
    show (args[r]?).isSome
    rw [List.getElem?_eq_getElem (hargs.symm ▸ hr)]
    rfl
  have hrun := run_straight
    (I := fun pc registers => Known (symbolicRegisters p pc) args registers)
    (fun s w _ hwrites hknown => hknown.step hwrites) hstraight rfl hdefined (known_start p args)
  rcases hrun with ⟨-, s, hleads, hpc, hdefined', hknown⟩ | ⟨hreturned, -⟩ | hdivision
  · exact .inl ⟨s, hleads, hpc, hdefined', hknown⟩
  · cases hreturned
  · exact .inr hdivision

end Vm

end UniJit.Lua
