import UniJit.Ir.FilledBlocks
import UniJit.Lua.LoopPreservation
import UniJit.Lua.StraightTranslation

/-!
# A step of zero

The graph of a Float64 loop leaves with a runtime exit for one reason only: the machine stops at
`OP_FORPREP` because the step of the loop is zero (`exits_iff_stepIsZero`). On the side of the
machine, a call that has passed its one `OP_FORPREP` stays in the translated rows behind it
(`Beyond`) and never stops so. On the side of the graph, the nodes behind the guard of the step are
quiet (`quietBehind_emitFloatLoop`).
-/

namespace UniJit.Lua

open UniJit.Ir UniJit.Lib UniJit.Runtime LawfulScalarBuilder ControlFlowBuilder

/-! ## Translated rows -/

/-- The instructions from `pc` on were translated, up to a return or up to `stop`. -/
inductive FloatRow (p : Proto) (stop : Nat) : Nat → Bool → Prop
  | done : FloatRow p stop stop false
  | returns {pc : Nat} : (p.fetch pc).opcode = .ret1 ∨ (p.fetch pc).opcode = .ret →
      FloatRow p stop pc true
  | next {pc : Nat} {returned : Bool} : FloatAccepts p pc stop (pc + (p.fetch pc).width) →
      FloatRow p stop (pc + (p.fetch pc).width) returned → FloatRow p stop pc returned

/-- A range that is translated is a row of Float64 instructions. -/
lemma floatRow_of_translate {B : Type} [LawfulScalarBuilder B] {ofInteger : Word → Word} {p : Proto}
    {allowReturn returned : Bool} {protectedStateBase : Option Nat} {stop fuel pc : Nat}
    {values values' : List TypedValue} {e e' : Emitter B} (hpc : pc ≤ stop)
    (hfuel : stop ≤ pc + fuel)
    (h : translateFloatRange ofInteger p allowReturn protectedStateBase stop fuel pc values e =
      .ok (values', returned) e') :
    FloatRow p stop pc returned ∧ (returned = true → allowReturn = true) := by
  induction fuel generalizing pc values e with
  | zero =>
      obtain rfl : pc = stop := by omega
      obtain ⟨hdone, -⟩ := pure_run_eq_ok.mp h
      cases hdone
      exact ⟨.done, Bool.noConfusion⟩
  | succ fuel ih =>
      rw [translateFloatRange] at h
      split_ifs at h with hend
      · obtain rfl : pc = stop := by omega
        obtain ⟨hdone, -⟩ := pure_run_eq_ok.mp h
        cases hdone
        exact ⟨.done, Bool.noConfusion⟩
      obtain ⟨-, e₀, -, h⟩ := bind_run_eq_ok.mp h
      rcases ite_run_eq_ok.mp h with ⟨hreturn, h⟩ | ⟨-, h⟩
      · have hspec : allowReturn = true ∧ values' = values ∧ returned = true ∧
            RecordsReturn p ⟨pc, fun _ => True, values, e₀.builder⟩ e'.builder := by
          apply translateFloatReturn_spec hreturn trivial
          exact h
        obtain ⟨hallow, -, rfl, -⟩ := hspec
        exact ⟨.returns hreturn, fun _ => hallow⟩
      obtain ⟨⟨middle, next⟩, e₁, hinstruction, hrest⟩ := bind_run_eq_ok.mp h
      have haccepts := translateFloatInstruction_spec (by omega) hinstruction
      have hnext := haccepts.next_eq
      have hwidth := (p.fetch pc).width_pos
      have hfits := haccepts.fits
      obtain ⟨hrow, hallow⟩ := ih (by omega) (by omega) hrest
      subst hnext
      exact ⟨.next haccepts hrow, hallow⟩

/-! ## The machine behind the preparation -/

/-- A loop whose body and what follows it were translated. -/
structure FloatLoopCode (p : Proto) (preparationPc loopPc : Nat) : Prop where
  preparation : (p.fetch preparationPc).opcode = .forPrep
  loop : loopPc = preparationPc + (p.fetch preparationPc).Bx + 1
  latch : (p.fetch loopPc).opcode = .forLoop
  back : (p.fetch loopPc).Bx = loopPc - preparationPc
  body : FloatRow p loopPc (preparationPc + 1) false
  tail : FloatRow p p.sizecode (loopPc + 1) true

namespace NumberVm

variable {float : FloatUnit} {ofInteger : Word → Word} {p : Proto} {preparationPc loopPc : Nat}
  {s s' : State}

/-- In the body of a loop or behind it. -/
def Beyond (p : Proto) (loopPc : Nat) (s : State) : Prop :=
  FloatRow p loopPc s.pc false ∨ FloatRow p p.sizecode s.pc true

/-- An accepted instruction goes on behind itself. -/
lemma pc_of_accepts {stop next : Nat} (haccepts : FloatAccepts p s.pc stop next)
    (hstep : step float ofInteger p s = some (.next s')) : s'.pc = s.pc + (p.fetch s.pc).width := by
  obtain ⟨n, hwrite⟩ := write_of_step haccepts.writes hstep
  cases hwrite
  rfl

/-- Where the end of an iteration goes on. -/
lemma pc_of_forLoop {i : Instruction} (hstep : forLoop float s i = some (.next s')) :
    s'.pc = s.pc + 1 - i.Bx ∨ s'.pc = s.pc + 1 := by
  unfold forLoop at hstep
  split at hstep
  · dsimp only at hstep
    split_ifs at hstep
    all_goals cases hstep
    · exact .inl rfl
    · exact .inr rfl
  · cases hstep

/-- A call does not come back to the preparation. -/
lemma Beyond.step (hcode : FloatLoopCode p preparationPc loopPc) (h : Beyond p loopPc s)
    (hstep : step float ofInteger p s = some (.next s')) : Beyond p loopPc s' := by
  unfold Beyond at h ⊢
  generalize hpc : s.pc = pc at h
  rcases h with h | h
  · cases h with
    | done =>
        have hloop : NumberVm.step float ofInteger p s = forLoop float s (p.fetch s.pc) := by
          simp only [NumberVm.step, hpc, hcode.latch]
        rw [hloop, hpc] at hstep
        have hback := hcode.back
        have hlength := hcode.loop
        rcases pc_of_forLoop hstep with hnext | hnext
        · have hbody : s'.pc = preparationPc + 1 := by omega
          exact .inl (hbody ▸ hcode.body)
        · exact .inr (by rw [hnext, hpc]; exact hcode.tail)
    | next haccepts hrow =>
        subst hpc
        exact .inl (by rw [pc_of_accepts haccepts hstep]; exact hrow)
  · cases h with
    | returns hreturn =>
        subst hpc
        exfalso
        simp only [NumberVm.step] at hstep
        rcases hreturn with hreturn | hreturn
        all_goals simp only [hreturn] at hstep
        · obtain ⟨n, -, ht⟩ := Option.bind_eq_some_iff.mp hstep
          cases ht
        · split_ifs at hstep
          obtain ⟨n, -, ht⟩ := Option.bind_eq_some_iff.mp hstep
          cases ht
    | next haccepts hrow =>
        subst hpc
        exact .inr (by rw [pc_of_accepts haccepts hstep]; exact hrow)

/-- There is no preparation in a translated row, nor at the end of the body. -/
lemma Beyond.opcode_ne (hcode : FloatLoopCode p preparationPc loopPc) (h : Beyond p loopPc s) :
    (p.fetch s.pc).opcode ≠ .forPrep := by
  intro hopcode
  unfold Beyond at h
  generalize s.pc = pc at h hopcode
  rcases h with h | h
  all_goals cases h
  case inl.done =>
    rw [hcode.latch] at hopcode
    cases hopcode
  case inr.returns hreturn =>
    rw [hopcode] at hreturn
    rcases hreturn with hreturn | hreturn
    all_goals cases hreturn
  all_goals
    rename_i haccepts _
    have hwrites := haccepts.writes
    rw [hopcode] at hwrites
    cases hwrites

/-- At the preparation the step decides. -/
lemma ends_stepIsZero_iff (hcode : FloatLoopCode p preparationPc loopPc) {registers : Registers}
    {init limit stride : Number} (hinit : registers (p.fetch preparationPc).A = some init)
    (hlimit : registers ((p.fetch preparationPc).A + 1) = some limit)
    (hstride : registers ((p.fetch preparationPc).A + 2) = some stride)
    (hkind : ¬(init.kind = .integer ∧ stride.kind = .integer)) :
    Ends float ofInteger p ⟨preparationPc, registers⟩ .stepIsZero ↔
      float.equal (stride.toDouble ofInteger) 0 = true := by
  have hstep : step float ofInteger p ⟨preparationPc, registers⟩ =
      forPrep float ofInteger ⟨preparationPc, registers⟩ (p.fetch preparationPc) := by
    simp only [step, hcode.preparation]
  simp only [forPrep, hinit, hlimit, hstride, Option.bind_eq_bind, Option.bind_some,
    if_neg hkind] at hstep
  have hnever : ∀ s, Beyond p loopPc s → ¬Ends float ofInteger p s .stepIsZero :=
    fun s hs => not_ends_of_invariant (I := Beyond p loopPc)
      (fun _ _ hbeyond hnext => hbeyond.step hcode hnext)
      (fun _ hbeyond hdone => hbeyond.opcode_ne hcode (forPrep_of_stepIsZero hdone)) hs
  split_ifs at hstep with hzero hskips
  · exact iff_of_true ((ends_done hstep).mpr rfl) hzero
  · refine iff_of_false (fun hends => hnever _ (.inr ?_) ((ends_next hstep).mp hends)) hzero
    have hnext : preparationPc + (p.fetch preparationPc).Bx + 2 = loopPc + 1 := by
      rw [hcode.loop]
    exact hnext ▸ hcode.tail
  · exact iff_of_false (fun hends => hnever _ (.inl hcode.body) ((ends_next hstep).mp hends)) hzero

end NumberVm

/-! ## The graph behind the guard -/

/-- A builder that has filled its entry only. -/
structure InEntry (b : ControlFlowBuilder) : Prop where
  blocks : ∃ block : BasicBlock, b.function.blocks = [block] ∧ block.terminator = .none
  insertionBlock : b.insertionBlock = b.function.entryBlock
  entryBlock : b.function.entryBlock = .ofIndex 0

lemma inEntry_create (types : List ValueType) : InEntry (ControlFlowBuilder.create types) :=
  ⟨⟨_, rfl, rfl⟩, rfl, rfl⟩

/-- Scalar operations do not leave the entry block. -/
lemma inEntry_of_grows {b b' : ControlFlowBuilder} (h : Code.Grows b b') (hb : InEntry b) :
    InEntry b' := by
  induction h with
  | refl => exact hb
  | @tail c _ _ happend ih =>
      obtain ⟨o, type, lhs, rhs, immediate, rfl⟩ := happend
      obtain ⟨⟨block, hblocks, hopen⟩, hinsertion, hentry⟩ := ih
      by_cases haccepts : c.accepts
      · simp only [ScalarBuilder.append, appendNode_of_accepts haccepts]
        have hzero : c.insertionBlock.index = 0 := by
          rw [hinsertion, hentry]
          rfl
        refine ⟨⟨{ c.current with instructions := c.current.instructions ++
          [.ofIndex c.function.nodes.length] }, ?_, ?_⟩, hinsertion, hentry⟩
        · rw [hzero, hblocks]
          rfl
        · show c.current.terminator = .none
          rw [current, hzero, hblocks]
          exact hopen
      · rw [LawfulScalarBuilder.append_refused haccepts]
        exact ⟨⟨block, hblocks, hopen⟩, hinsertion, hentry⟩

/-- Nothing stands behind the point where an entry is filled. -/
lemma InEntry.quietBehind {b : ControlFlowBuilder} (h : InEntry b)
    (hbound : b.function.nodes.length ≤ kInvalidIndex.toNat) :
    QuietBehind b.function.nodes.length b.current.instructions.length b := by
  obtain ⟨⟨block, hblocks, hopen⟩, hinsertion, hentry⟩ := h
  refine ⟨le_rfl, hbound, fun i n hi hn => ?_, fun k found hk => ?_⟩
  · rw [List.getElem?_eq_none hi] at hn
    cases hn
  · have hzero : b.function.entryBlock.index = 0 := by
      rw [hentry]
      rfl
    have hcurrent : b.current = block := by
      rw [current, hinsertion, hzero, hblocks]
      rfl
    rw [hblocks] at hk
    rcases k with - | k
    · obtain rfl := Option.some.inj hk
      rw [hzero, if_pos rfl, hcurrent]
      refine ⟨fun v hv => ?_, fun target htarget => ?_⟩
      · rw [List.drop_length] at hv
        cases hv
      · rw [hopen] at htarget
        cases htarget
    · cases hk

section loops

variable {ofInteger : Word → Word} {p : Proto} {l : FloatLoopSite}
  {e e' : Emitter ControlFlowBuilder}

/-- One copy of the body is enough to see that it was translated. -/
lemma floatRow_of_copies {iteration : Block} {n parameter : Nat} {values values' : List TypedValue}
    (hle : l.preparationPc + 1 ≤ l.loopPc)
    (h : emitFloatCopies ofInteger p l iteration (n + 1) parameter values e = .ok values' e') :
    FloatRow p l.loopPc (l.preparationPc + 1) false := by
  rw [emitFloatCopies] at h
  obtain ⟨⟨middle, returned⟩, e₁, htranslate, -⟩ := bind_run_eq_ok.mp h
  obtain ⟨hrow, hallow⟩ := floatRow_of_translate hle (by omega) htranslate
  rcases returned with - | -
  · exact hrow
  · cases hallow rfl

/-- The body of an emitted iteration is a row of Float64 instructions. -/
lemma floatRow_of_iteration {iteration dispatch exit : Block} {positive : Bool} {n : Nat}
    (hle : l.preparationPc + 1 ≤ l.loopPc)
    (h : emitFloatIteration ofInteger p l iteration dispatch exit positive (n + 1) e = .ok () e') :
    FloatRow p l.loopPc (l.preparationPc + 1) false := by
  unfold emitFloatIteration at h
  obtain ⟨-, e₁, -, h⟩ := bind_run_eq_ok.mp h
  obtain ⟨values, e₂, -, h⟩ := bind_run_eq_ok.mp h
  obtain ⟨values', e₃, hcopies, -⟩ := bind_run_eq_ok.mp h
  exact floatRow_of_copies hle hcopies

/-- Body and tail of an emitted loop are rows of Float64 instructions. -/
lemma floatRows_of_emitFloatLoop {optimized : Bool} (hle : l.preparationPc + 1 ≤ l.loopPc)
    (hloop : l.loopPc < p.sizecode)
    (h : emitFloatLoop ofInteger p l optimized e = .ok () e') :
    FloatRow p l.loopPc (l.preparationPc + 1) false ∧
      FloatRow p p.sizecode (l.loopPc + 1) true := by
  have hrest : ∀ (positive nonpositive positiveDispatch nonpositiveDispatch exit : Block)
      (e e' : Emitter ControlFlowBuilder),
      (do emitFloatIteration ofInteger p l positive positiveDispatch exit true 1
          emitFloatIteration ofInteger p l nonpositive nonpositiveDispatch exit false 1
          setInsertionBlock exit
          let values ← floatBlockRegisters p l l.exitKind exit
          let tail ← translateFloat ofInteger p true none (l.loopPc + 1) p.sizecode values
          check tail.2 (bytecodeError p.sizecode
            "Float64 numeric loop has no supported return") : EmitGraph Unit) e = .ok () e' →
      FloatRow p l.loopPc (l.preparationPc + 1) false ∧
        FloatRow p p.sizecode (l.loopPc + 1) true := by
    intro positive nonpositive positiveDispatch nonpositiveDispatch exit e e' h
    obtain ⟨_, e₁, hiteration, h⟩ := bind_run_eq_ok.mp h
    obtain ⟨-, e₂, -, h⟩ := bind_run_eq_ok.mp h
    obtain ⟨-, e₃, -, h⟩ := bind_run_eq_ok.mp h
    obtain ⟨values, e₄, -, h⟩ := bind_run_eq_ok.mp h
    obtain ⟨⟨values', returned⟩, e₅, htranslate, h⟩ := bind_run_eq_ok.mp h
    obtain ⟨hreturned, -⟩ := check_eq_ok.mp h
    obtain ⟨htail, -⟩ := floatRow_of_translate (by omega) (by omega) htranslate
    have hreturned : returned = true := hreturned
    exact ⟨floatRow_of_iteration hle hiteration, hreturned ▸ htail⟩
  unfold emitFloatLoop at h
  iterate 4 obtain ⟨_, _, -, h⟩ := bind_run_eq_ok.mp h
  dsimp only at h
  split at h
  · iterate 2 obtain ⟨_, _, -, h⟩ := bind_run_eq_ok.mp h
    obtain ⟨unrolled, _, -, h⟩ := bind_run_eq_ok.mp h
    iterate 7 obtain ⟨_, _, -, h⟩ := bind_run_eq_ok.mp h
    rcases unrolled with - | unrolled
    · exact hrest _ _ _ _ _ _ _ h
    · iterate 2 obtain ⟨_, _, -, h⟩ := bind_run_eq_ok.mp h
      exact hrest _ _ _ _ _ _ _ h
  · obtain ⟨unrolled, _, -, h⟩ := bind_run_eq_ok.mp h
    iterate 7 obtain ⟨_, _, -, h⟩ := bind_run_eq_ok.mp h
    rcases unrolled with - | unrolled
    · exact hrest _ _ _ _ _ _ _ h
    · iterate 2 obtain ⟨_, _, -, h⟩ := bind_run_eq_ok.mp h
      exact hrest _ _ _ _ _ _ _ h

end loops

/-! ## The step decides -/

/-- A run leaves with a runtime exit exactly if `zero` holds, and then at the preparation. -/
structure ExitsForStep (p : Proto) (zero : Prop) (r : EStateM.Result Status Machine Word) :
    Prop where
  site : ∀ status m, r = .error status m → status.code = .runtimeExit →
    (p.fetch (status.location % p.sizecode)).opcode = .forPrep
  iff : (∃ status m, r = .error status m ∧ status.code = .runtimeExit) ↔ zero

section step

variable {p : Proto} {zero : Prop}

/-- A runtime exit at the preparation is one for a zero step. -/
lemma exitsForStep_of_exit {text : String} {site : Nat} {m : Machine}
    (hopcode : (p.fetch (site % p.sizecode)).opcode = .forPrep) (hzero : zero) :
    ExitsForStep p zero (.error ⟨.runtimeExit, text, site⟩ m) := by
  refine ⟨fun status m' hr _ => ?_, iff_of_true ⟨_, _, rfl, rfl⟩ hzero⟩
  cases hr
  exact hopcode

/-- Code without exits exits for no step. -/
lemma exitsForStep_of_quiet {x : Exec Word} (hx : ExitsAt (fun _ => False) x) (hzero : ¬zero)
    (m : Machine) : ExitsForStep p zero (x m) := by
  have hnever : ∀ status m', x m = .error status m' → status.code ≠ .runtimeExit := by
    intro status m' hr hcode
    have hexit := hx m
    rw [hr] at hexit
    exact hexit hcode
  refine ⟨fun status m' hr hcode => absurd hcode (hnever status m' hr), iff_of_false ?_ hzero⟩
  rintro ⟨status, m', hr, hcode⟩
  exact hnever status m' hr hcode

end step

section prototypes

variable {host : Host} {ofInteger : Word → Word} {p : Proto} {args : List Word}
  {f : ControlFlowFunction}

/-- The arguments in the machine on numbers are the parameters of the graph. -/
lemma holds_parameters (hbyte : p.numparams < 256) (hargs : args.length = p.numparams)
    (hpart : (ControlFlowBuilder.create (List.replicate p.numparams .float64)).function.PartOf f) :
    Holds ofInteger (fun _ => True) (floatParameterRegisters p
        (ControlFlowBuilder.create (List.replicate p.numparams .float64)).parameter)
      (NumberVm.start args).registers
      (size (ControlFlowBuilder.create (List.replicate p.numparams .float64)))
      (f.assignArguments args (Values.zero f.nodes.length)) := by
  intro r _ hvalid
  obtain ⟨hstack, hr⟩ := floatParameterRegisters_spec hvalid
  have hlarge : 256 < kInvalidIndex.toNat := by decide
  have hindex : (Value.ofIndex r).index = r := Value.index_ofIndex (by omega)
  have hget : (floatParameterRegisters p (ControlFlowBuilder.create
      (List.replicate p.numparams .float64)).parameter).getD r {} = ⟨.ofIndex r, .float64⟩ := by
    simp [floatParameterRegisters, List.getD, List.getElem?_map, List.getElem?_range hstack, hr,
      ControlFlowFunction.parameter_create hbyte hr]
  obtain ⟨-, hwords⟩ := ControlFlowFunction.assignArguments_spec hbyte args hpart
    (Values.zero f.nodes.length) List.length_replicate
  rw [hget]
  refine ⟨?_, .float (args.getD r 0), ?_, rfl, (hwords r hr).symm⟩
  · show (Value.ofIndex r).index < (ControlFlowBuilder.create _).function.nodes.length
    rwa [hindex, ControlFlowFunction.length_nodes_create hbyte]
  · simp [NumberVm.start, List.getD, hargs ▸ hr]

/-- What emitting the guard on the step has built. -/
lemma emitStepGuard_spec {pc : Nat} {step : Value} {e e' : Emitter ControlFlowBuilder}
    (h : emitStepGuard p pc step e = .ok () e') :
    e.builder.accepts ∧ p.sizecode + pc ≤ maximumWord ∧
      e'.builder = (ScalarBuilder.append e.builder .guardFloatNonzero .word step .invalid
        (BitVec.ofNat 64 (p.sizecode + pc))).2 := by
  simp only [emitStepGuard, bind_run_eq_ok, check_eq_ok] at h
  obtain ⟨guard, e₁, hbuild, hvalid, rfl⟩ := h
  cases hbuild
  simp only [ScalarBuilder.guardFloat64Nonzero, ScalarBuilder.guard] at hvalid ⊢
  split_ifs at hvalid ⊢ with hlarge
  · exact absurd hvalid not_valid_invalid
  · exact ⟨Code.valid_append.mp hvalid, not_lt.mp hlarge, rfl⟩

/-- Emitting a Float64 loop leaves what was there in place. -/
lemma partOf_emitFloatLoop {l : FloatLoopSite} {optimized : Bool}
    {e e' : Emitter ControlFlowBuilder} (h : emitFloatLoop ofInteger p l optimized e = .ok () e') :
    e.builder.function.PartOf e'.builder.function :=
  builds_emitFloatLoop (kept_partOf (fun _ => False) e.builder.function) optimized e () e'
    (.refl _) h

/-- Behind the guard the graph of a loop has no exit. -/
lemma quietBehind_emitFloatLoop {l : FloatLoopSite} {optimized : Bool} {first count : Nat}
    {e e' : Emitter ControlFlowBuilder} (hb : QuietBehind first count e.builder)
    (h : emitFloatLoop ofInteger p l optimized e = .ok () e') :
    QuietBehind first count e'.builder :=
  builds_emitFloatLoop (kept_quietBehind first count) optimized e () e' hb h

/-- The guard of the step is the only way out of the graph. -/
lemma yields_emitStepGuard {l : FloatLoopSite} {optimized : Bool} {zero : Prop}
    {e e₁ e' : Emitter ControlFlowBuilder} {s : Values} {m : Machine}
    (hpreparation : (p.fetch l.preparationPc).opcode = .forPrep)
    (hinside : l.preparationPc < p.sizecode) (hentry : InEntry e.builder)
    (hguard : emitStepGuard p l.preparationPc l.step e = .ok () e₁)
    (hloop : emitFloatLoop ofInteger p l optimized e₁ = .ok () e')
    (hlength : s.words.length = e'.builder.function.nodes.length)
    (hindex : l.step.index < e.builder.function.nodes.length)
    (hzero : zero ↔ host.float.equal (s.word l.step) 0 = true) :
    e'.builder.function.Yields host e.builder s m (ExitsForStep p zero) := by
  have hpart := partOf_emitFloatLoop hloop
  obtain ⟨haccepts, hsite, hbuilder⟩ := emitStepGuard_spec hguard
  have happended := hbuilder ▸ hpart
  by_cases hfires : host.float.equal (s.word l.step) 0 = true
  · have hexits : (e'.builder.function.code host).Exits e.builder s m
        (.ofNat 64 (p.sizecode + l.preparationPc)) := by
      apply Code.exits_append haccepts happended hindex
      exact hfires
    refine hexits _ fun text _ m' => exitsForStep_of_exit ?_ (hzero.mpr hfires)
    have hword : (BitVec.ofNat 64 (p.sizecode + l.preparationPc)).toNat =
        p.sizecode + l.preparationPc := by
      rw [BitVec.toNat_ofNat]
      exact Nat.mod_eq_of_lt (by simp only [maximumWord] at hsite; omega)
    rw [hword, Nat.add_mod_left, Nat.mod_eq_of_lt hinside]
    exact hpreparation
  · obtain ⟨s', hleads, -⟩ : ∃ s', (e'.builder.function.code host).Leads e.builder s m
        _ s' m ∧ s'.word _ = 0 ∧ Keeps (size e.builder) s s' := by
      refine Code.leads_append haccepts happended hlength ?_ ?_ m
      · exact hindex
      · exact if_neg hfires
    have hentry₁ : InEntry e₁.builder := by
      rw [hbuilder]
      exact inEntry_of_grows Code.grows_append hentry
    have hroom : size e₁.builder ≤ kInvalidIndex.toNat := by
      have hlt := LawfulScalarBuilder.size_lt (b := e.builder) haccepts
      rw [hbuilder, LawfulScalarBuilder.size_append (b := e.builder) haccepts]
      omega
    have hbehind := quietBehind_emitFloatLoop (hentry₁.quietBehind hroom) hloop
    apply hleads
    rw [← hbuilder]
    refine ⟨0, fun budget _ => exitsForStep_of_quiet (hbehind.resume ?_
      (hentry₁.insertionBlock.trans hpart.entryBlock) rfl host budget s')
      (fun hholds => hfires (hzero.mp hholds)) m⟩
    rw [← hpart.entryBlock, hentry₁.entryBlock]
    decide

/-- The preparation that is found is one. -/
lemma findFloatPreparation_spec {pc : Nat} (h : findFloatPreparation p = .ok pc) :
    (p.fetch pc).opcode = .forPrep := by
  unfold findFloatPreparation at h
  split at h
  case h_1 | h_3 => cases h
  case h_2 found hfilter =>
    cases h
    have hmem : pc ∈ (List.range p.sizecode).filter fun pc => (p.fetch pc).opcode == .forPrep := by
      rw [hfilter]
      exact List.mem_singleton_self _
    simpa using (List.mem_filter.mp hmem).2

/-- What the graph of a Float64 loop is emitted from: the code before the loop, the guard of its
step, and the loop. -/
structure FloatLoopEmission (ofInteger : Word → Word) (p : Proto) (optimized : Bool)
    (l : FloatLoopSite) (e e₁ e' : Emitter ControlFlowBuilder) : Prop where
  preparation : findFloatPreparation p = .ok l.preparationPc
  base : (p.fetch l.preparationPc).A = l.stateBase
  behind : l.loopPc = l.preparationPc + (p.fetch l.preparationPc).Bx + 1
  latch : l.loopPc < p.sizecode ∧ (p.fetch l.loopPc).opcode = .forLoop ∧
    (p.fetch l.loopPc).Bx = l.loopPc - l.preparationPc
  state : l.stateBase + 2 < p.maxstacksize
  setup : ∃ returned, translateFloat ofInteger p false none 0 l.preparationPc
    (floatParameterRegisters p
      (ControlFlowBuilder.create (List.replicate p.numparams .float64)).parameter)
    { builder := ControlFlowBuilder.create (List.replicate p.numparams .float64) } =
      .ok (l.registers, returned) e
  controls : isNumber l.registers l.stateBase ∧ isNumber l.registers (l.stateBase + 1) ∧
    isNumber l.registers (l.stateBase + 2)
  kinds : (l.registers.getD l.stateBase {}).kind = .float64 ∨
    (l.registers.getD (l.stateBase + 2) {}).kind = .float64
  guard : emitStepGuard p l.preparationPc l.step e = .ok () e₁
  loop : emitFloatLoop ofInteger p l optimized e₁ = .ok () e'

/-- A compiled loop is an emitted one. -/
lemma floatLoopEmission_of_compile {optimized : Bool}
    (hcompile : compileFloat64NumericForPrototype ofInteger p optimized = .ok f) :
    ∃ l e e₁ e', FloatLoopEmission ofInteger p optimized l e e₁ e' ∧ f = e'.builder.build := by
  unfold compileFloat64NumericForPrototype at hcompile
  obtain ⟨preparationPc, hpreparation, hcompile⟩ := bind_eq_ok.mp hcompile
  obtain ⟨hlatch, hcompile⟩ := require_bind_eq_ok.mp hcompile
  obtain ⟨⟨hstate, -⟩, hcompile⟩ := require_bind_eq_ok.mp hcompile
  dsimp only at hcompile
  split at hcompile
  case h_1 => cases hcompile
  case h_2 e' hrun =>
  cases hcompile
  obtain ⟨⟨registers, returned⟩, e, hsetup, hrun⟩ := bind_run_eq_ok.mp hrun
  obtain ⟨_, _, hchecked, hrun⟩ := bind_run_eq_ok.mp hrun
  obtain ⟨hcontrols, rfl⟩ := check_eq_ok.mp hchecked
  obtain ⟨_, _, hchecked', hrun⟩ := bind_run_eq_ok.mp hrun
  obtain ⟨hkinds, rfl⟩ := check_eq_ok.mp hchecked'
  obtain ⟨_, e₁, hguard, hloop⟩ := bind_run_eq_ok.mp hrun
  exact ⟨_, e, e₁, e', ⟨hpreparation, rfl, rfl, hlatch, hstate, ⟨returned, hsetup⟩, hcontrols,
    hkinds, hguard, hloop⟩, rfl⟩

namespace FloatLoopEmission

variable {optimized : Bool} {l : FloatLoopSite} {e e₁ e' : Emitter ControlFlowBuilder}
  (h : FloatLoopEmission ofInteger p optimized l e e₁ e')
include h

/-- The preparation is an instruction of the prototype. -/
lemma inside : l.preparationPc < p.sizecode := by
  have hbehind := h.behind
  have hlatch := h.latch.1
  omega

/-- The bytecode of an emitted loop. -/
lemma code : FloatLoopCode p l.preparationPc l.loopPc := by
  have hbehind := h.behind
  obtain ⟨hbody, htail⟩ := floatRows_of_emitFloatLoop (by omega) h.latch.1 h.loop
  exact ⟨findFloatPreparation_spec h.preparation, hbehind, h.latch.2.1, h.latch.2.2, hbody, htail⟩

/-- The loop is added to what was there. -/
lemma partOf : e.builder.function.PartOf e'.builder.function := by
  obtain ⟨-, -, hbuilder⟩ := emitStepGuard_spec h.guard
  have hlast := partOf_emitFloatLoop h.loop
  rw [hbuilder] at hlast
  exact partOf_appendNode.trans hlast

/-- The code before the loop takes a run along with the machine. -/
lemma simulates (host : Host) :
    Simulates (e'.builder.function.code host) ofInteger p (fun _ => False)
      ⟨0, fun _ => True, floatParameterRegisters p
          (ControlFlowBuilder.create (List.replicate p.numparams .float64)).parameter,
        ControlFlowBuilder.create (List.replicate p.numparams .float64)⟩
      ⟨l.preparationPc, fun _ => True, l.registers, e.builder⟩ := by
  obtain ⟨returned, hsetup⟩ := h.setup
  exact ((simulates_range (e'.builder.function.code host) (fun _ => False)
    (FloatScope.all p 0 l.preparationPc) (fun _ => False.elim) le_rfl (Nat.zero_le _) (by omega)
    hsetup).resolve_right (fun h => Bool.false_ne_true h.2.1)).2

lemma inEntry (host : Host) : InEntry e.builder :=
  inEntry_of_grows (h.simulates host).grows (inEntry_create _)

/-- The parameters are part of the emitted graph. -/
lemma create (host : Host) :
    (ControlFlowBuilder.create (List.replicate p.numparams .float64)).function.PartOf
      e'.builder.function :=
  (inBlock_of_grows (h.simulates host).grows).part.trans h.partOf

/-- A run and the machine come to the loop with the same step. -/
lemma arrives (host : Host) (hbyte : p.numparams < 256) (hargs : args.length = p.numparams)
    (m : Machine) :
    ∃ s numbers stride, (e'.builder.function.code host).Leads
        (ControlFlowBuilder.create (List.replicate p.numparams .float64))
        (e'.builder.function.assignArguments args (Values.zero e'.builder.function.nodes.length)) m
        e.builder s m ∧
      s.words.length = e'.builder.function.nodes.length ∧
      l.step.index < e.builder.function.nodes.length ∧
      NumberVm.Leads host.float ofInteger p (NumberVm.start args) ⟨l.preparationPc, numbers⟩ ∧
      numbers (l.stateBase + 2) = some stride ∧ stride.toDouble ofInteger = s.word l.step ∧
      (NumberVm.Ends host.float ofInteger p (NumberVm.start args) .stepIsZero ↔
        host.float.equal (stride.toDouble ofInteger) 0 = true) := by
  have hcreate := h.create host
  obtain ⟨hlength, -⟩ := ControlFlowFunction.assignArguments_spec hbyte args hcreate
    (Values.zero e'.builder.function.nodes.length) List.length_replicate
  obtain ⟨s, numbers, hleads, hkeeps, hmachine, -, hholds⟩ :=
    (h.simulates host).leads h.partOf _ m _ hlength (holds_parameters hbyte hargs hcreate)
  obtain ⟨-, init, hinit, hinitKind, -⟩ := hholds.number trivial h.controls.1.1
  obtain ⟨-, limit, hlimit, -, -⟩ := hholds.number trivial h.controls.2.1.1
  obtain ⟨hindex, stride, hstride, hstrideKind, hword⟩ := hholds.number trivial h.controls.2.2.1
  have hkind : ¬(init.kind = .integer ∧ stride.kind = .integer) := by
    rintro ⟨hfirst, hlast⟩
    rw [hinitKind] at hfirst
    rw [hstrideKind] at hlast
    rcases h.kinds with hkinds | hkinds
    · rw [hkinds] at hfirst
      cases hfirst
    · rw [hkinds] at hlast
      cases hlast
  refine ⟨s, numbers, stride, hleads, hkeeps.length.trans hlength, hindex, hmachine, hstride, hword,
    hmachine.ends.trans ?_⟩
  exact NumberVm.ends_stepIsZero_iff h.code (h.base ▸ hinit) (h.base ▸ hlimit) (h.base ▸ hstride)
    hkind

/-- The graph leaves for the step of the loop, or not at all. -/
lemma yields (host : Host) (hbyte : p.numparams < 256) (hargs : args.length = p.numparams)
    (m : Machine) :
    e'.builder.function.Yields host
      (ControlFlowBuilder.create (List.replicate p.numparams .float64))
      (e'.builder.function.assignArguments args (Values.zero e'.builder.function.nodes.length)) m
      (ExitsForStep p (NumberVm.Ends host.float ofInteger p (NumberVm.start args) .stepIsZero)) := by
  obtain ⟨s, numbers, stride, hleads, hlength, hindex, -, -, hword, hends⟩ :=
    h.arrives host hbyte hargs m
  apply hleads
  refine yields_emitStepGuard h.code.preparation h.inside (h.inEntry host) h.guard h.loop hlength
    hindex ?_
  rw [hends, hword]

end FloatLoopEmission

/-- **A step of zero.** The graph of a Float64 loop leaves with a runtime exit exactly if the
machine stops for the step of the loop, and the site of the exit leads back to `OP_FORPREP`. -/
theorem exits_iff_stepIsZero {optimized : Bool}
    (hcompile : compileFloat64NumericForPrototype ofInteger p optimized = .ok f)
    (hverify : f.verify = .ok ()) (hbyte : p.numparams < 256) (hargs : args.length = p.numparams)
    (m : Machine) :
    ∃ enough, ∀ budget, enough ≤ budget → ExitsForStep p
      (NumberVm.Ends host.float ofInteger p (NumberVm.start args) .stepIsZero)
      (f.interpret host args budget m) := by
  obtain ⟨l, e, e₁, e', h, rfl⟩ := floatLoopEmission_of_compile hcompile
  exact ControlFlowFunction.interpret_of_yields hverify (h.create host) hargs
    (h.yields host hbyte hargs) m

/-- `x = 0.0; for i = 1.0, 10.0, a do x = x + i end return x`. -/
def summingLoop : Proto where
  numparams := 1
  maxstacksize := 5
  code :=
    [{ opcode := .loadF, A := 1, sBx := 0 },
     { opcode := .loadF, A := 2, sBx := 1 },
     { opcode := .loadF, A := 3, sBx := 10 },
     { opcode := .move, A := 4, B := 0 },
     { opcode := .forPrep, A := 2, Bx := 2 },
     { opcode := .add, A := 1, B := 1, C := 4 },
     { opcode := .mmbin, A := 1, B := 4 },
     { opcode := .forLoop, A := 2, Bx := 3 },
     { opcode := .ret1, A := 1 }]

/-- A host that compares floats by their bits. -/
def comparingHost : Host :=
  { sampleHost with float := { sampleHost.float with equal := fun x y => decide (x = y) } }

/-- The summing loop with step 0 exits, as the machine ends with a zero step. -/
theorem exits_summingLoop :
    NumberVm.Ends comparingHost.float id summingLoop (NumberVm.start [0]) .stepIsZero ∧
      ∃ f, compileFloat64NumericForPrototype id summingLoop true = .ok f ∧
        ∃ enough, ∀ budget, enough ≤ budget → ExitsForStep summingLoop
          (NumberVm.Ends comparingHost.float id summingLoop (NumberVm.start [0]) .stepIsZero)
          (f.interpret comparingHost [0] budget {}) := by
  refine ⟨⟨5, by decide +kernel⟩, ?_⟩
  have hverify : (compileFloat64NumericForPrototype id summingLoop true >>= fun f => f.verify) =
      .ok () := by
    decide +kernel
  obtain ⟨f, hcompile, hverify⟩ := bind_eq_ok.mp hverify
  exact ⟨f, hcompile, exits_iff_stepIsZero hcompile hverify (by decide) rfl {}⟩

end prototypes

end UniJit.Lua
