import UniJit.Lua.LoopBlocks

/-!
# The ends of iterations

An iteration of a translated loop ends where the machine is at `OP_FORLOOP`: the code goes on to
another iteration exactly if the machine does, and leaves the loop otherwise (`yields_latch`).
Before that the body may have been copied several times, with the index advanced in between
(`CopiesBody`).
-/

namespace UniJit.Lua

open UniJit.Ir UniJit.Lib UniJit.Runtime LawfulScalarBuilder ControlFlowBuilder

/-! ## Emitted operations -/

section emitted

variable {B : Type} [LawfulScalarBuilder B] {float : FloatUnit} {code : Code B float}
  {e e' : Emitter B} {lhs rhs v : Value} {s : Values}

/-- Emitting a constant only adds a scalar operation. -/
lemma grows_emitConstant {value : Word} (h : emitConstant value e = .ok v e') :
    Code.Grows e.builder e'.builder := by
  cases h
  exact Code.grows_append

/-- Emitting a binary operation only adds a scalar operation. -/
lemma grows_emitBinary {opcode : BinaryOpcode} (h : emitBinary opcode lhs rhs e = .ok v e') :
    Code.Grows e.builder e'.builder := by
  cases h
  exact Code.grows_append

/-- An operation has a value only when the builder accepted it. -/
lemma accepts_of_emitBinary {opcode : BinaryOpcode} (h : emitBinary opcode lhs rhs e = .ok v e')
    (hvalid : v.valid) : accepts e.builder := by
  cases h
  exact Code.valid_append.mp hvalid

/-- An accepted operation has a value. -/
lemma valid_of_emitBinary {opcode : BinaryOpcode} (h : emitBinary opcode lhs rhs e = .ok v e')
    (haccepts : accepts e.builder) : v.valid := by
  cases h
  exact Code.valid_append.mpr haccepts

/-- A value that the code computes at a point, and the run after it. -/
structure Obtains (code : Code B float) (e e' : Emitter B) (v : Value) (s : Values) (m : Machine)
    (w : Word) (s' : Values) : Prop where
  valid : v.valid
  index_lt : v.index < size e'.builder
  leads : code.Leads e.builder s m e'.builder s' m
  keeps : Keeps (size e.builder) s s'
  word : s'.word v = w

variable (code) in
/-- An accepted constant is obtained. -/
lemma obtains_emitConstant {value : Word} (h : emitConstant value e = .ok v e')
    (haccepts : accepts e.builder) (hpart : code.Part e'.builder)
    (hlength : s.words.length = code.total) (m : Machine) :
    ∃ s', Obtains code e e' v s m value s' := by
  have hv := computes_emitConstant code True h
  have hvalid : v.valid := by
    cases h
    exact Code.valid_append.mpr haccepts
  obtain ⟨s', hleads, hkeeps, hword⟩ := hv.leads trivial hpart s m hlength
  exact ⟨s', hvalid, hv.index_lt hvalid, hleads, hkeeps, hword hvalid⟩

variable (code) in
/-- An accepted operation is obtained from its operands. -/
lemma obtains_emitBinary {opcode : BinaryOpcode} (h : emitBinary opcode lhs rhs e = .ok v e')
    (haccepts : accepts e.builder) (hpart : code.Part e'.builder)
    (hlength : s.words.length = code.total) (hlhs : lhs.index < size e.builder)
    (hrhs : rhs.valid ∧ rhs.index < size e.builder) (m : Machine) :
    ∃ s', Obtains code e e' v s m (evaluateBinary float opcode (s.word lhs) (s.word rhs)) s' := by
  have hv := computes_emitBinary code h
  have hvalid := valid_of_emitBinary h haccepts
  obtain ⟨s', hleads, hkeeps, hword⟩ := hv.leads (fun _ => ⟨hlhs, hrhs⟩) hpart s m hlength
  exact ⟨s', hvalid, hv.index_lt hvalid, hleads, hkeeps, hword hvalid⟩

end emitted

section ordered

variable {float : FloatUnit} {code : Code ControlFlowBuilder float}
  {e e' : Emitter ControlFlowBuilder} {lhs rhs v : Value} {s : Values} {ascending : Bool}
  {opcode : BinaryOpcode} (h : emitOrdered ascending opcode lhs rhs e = .ok v e')
include h

variable (code) in
/-- The operands of a comparison in the direction of a loop. -/
lemma obtains_emitOrdered (haccepts : e.builder.accepts)
    (hpart : code.Part e'.builder) (hlength : s.words.length = code.total)
    (hlhs : lhs.valid ∧ lhs.index < size e.builder) (hrhs : rhs.valid ∧ rhs.index < size e.builder)
    (m : Machine) : ∃ s', Obtains code e e' v s m
      (if ascending then evaluateBinary float opcode (s.word lhs) (s.word rhs)
        else evaluateBinary float opcode (s.word rhs) (s.word lhs)) s' := by
  cases ascending
  · exact obtains_emitBinary code h haccepts hpart hlength hrhs.2 hlhs m
  · exact obtains_emitBinary code h haccepts hpart hlength hlhs.2 hrhs m

lemma grows_emitOrdered : Code.Grows e.builder e'.builder := by
  cases ascending <;> exact grows_emitBinary h

lemma accepts_of_emitOrdered (hvalid : v.valid) : e.builder.accepts := by
  cases ascending <;> exact accepts_of_emitBinary h hvalid

end ordered

/-! ## Targets -/

/-- A block that was created behind the bound of a run, with its first parameter. -/
structure Placed (f : ControlFlowFunction) (a : Arrival) (b : ControlFlowBuilder) (block : Block)
    (first count : Nat) : Prop where
  bound : a.bound ≤ first
  created : f.Created b block first count

/-- From a block that is entered under a condition, a run ends as the machine does from a
position. -/
def RunsAt (f : ControlFlowFunction) (host : Host) (p : Proto) (l : LoopSite) (a : Arrival)
    (block : Block) (first pc : Nat) (C : Registers → Values → Prop) : Prop :=
  ∀ s m registers, Enters l a first registers s → C registers s →
    f.YieldsAt host block s m (Agrees p ⟨pc, registers⟩)

/-- From a block that begins an iteration, a run ends as the machine does, if fewer than `n`
iterations follow. -/
def BeginsAt (f : ControlFlowFunction) (host : Host) (p : Proto) (l : LoopSite) (a : Arrival)
    (block : Block) (first : Nat) (C : Word → Word → Values → Prop) (n : Nat) : Prop :=
  ∀ s m registers c index, Enters l a first registers s → l.Looping registers c a.step index →
    C c index s → c.toNat < n →
    f.YieldsAt host block s m (Agrees p ⟨l.preparationPc + 1, registers⟩)

/-- The code behind a loop, from the block that it begins with. -/
abbrev ExitRuns (f : ControlFlowFunction) (host : Host) (p : Proto) (l : LoopSite) (a : Arrival)
    (block : Block) (first : Nat) : Prop :=
  RunsAt f host p l a block first (l.loopPc + 1) fun _ _ => True

section latches

variable {f : ControlFlowFunction} {host : Host} {p : Proto} {l : LoopSite} {a : Arrival}
  {b : ControlFlowBuilder} {e e' : Emitter ControlFlowBuilder} {s : Values} {m : Machine}
  {registers : Registers} {block : Block} {first count : Nat}

lemma Placed.mono {b' : ControlFlowBuilder} (h : Placed f a b block first count)
    (hpart : b.function.PartOf b'.function) : Placed f a b' block first count :=
  ⟨h.bound, h.created.mono hpart⟩

/-- The values at the start of a block. -/
lemma Placed.inside (h : Placed f a b block first count) (hcount : l.carried.length ≤ count)
    (henters : Enters l a first registers s) (p : Proto) :
    Inside l a (registersAt p l.carried first) registers b.function.nodes.length s := by
  have hbound := h.created.parameters.bound
  have hle := h.created.le
  exact henters.inside p h.bound (by omega) (by omega)

/-- A block that is filled from a point on, where the registers have these values. -/
structure Filled (f : ControlFlowFunction) (host : Host) (p : Proto) (l : LoopSite) (a : Arrival)
    (block : Block) (first count : Nat) (values : List Value) (b : ControlFlowBuilder) : Prop where
  placed : Placed f a b block first count
  registers : values = registersAt p l.carried first
  start : ∀ s m registers post, Enters l a first registers s →
    (Inside l a values registers b.function.nodes.length s → f.Yields host b s m post) →
    f.YieldsAt host block s m post

/-- A block is filled, beginning with what the registers hold. -/
lemma fragment_of_block (howned : f.Owned) (host : Host) (a : Arrival) {P : Prop}
    {values : List Value} {e₁ e₂ : Emitter ControlFlowBuilder}
    (hset : setInsertionBlock block e = .ok () e₁)
    (hregisters : blockRegisters p l.carried block e₁ = .ok values e₂)
    (h : f.Closing e₂.builder e'.builder P) : f.Fragment e.builder e'.builder
      (P ∧ ∀ first count, Placed f a e.builder block first count → l.carried.length ≤ count →
        Filled f host p l a block first count values e₂.builder) := by
  have hset' := setInsertionBlock_run hset
  have hsame : e₁ = e₂ := by
    cases hregisters
    rfl
  subst hsame
  refine (h.filled host howned hset').imp fun hpart hfilled =>
    ⟨hfilled.1, fun first count hplaced hcount => ?_⟩
  have hplaced₁ := hplaced.mono (partOf_setInsertionBlock hset')
  obtain ⟨rfl, -⟩ :=
    blockRegisters_run hplaced₁.created (h.part.trans hpart) hcount hregisters
  exact ⟨hplaced₁, rfl, fun s m registers post henters hyields =>
    hfilled.2 s m post (hyields (hplaced₁.inside hcount henters p))⟩

/-- The code behind the loop. -/
lemma fragment_emitExit (howned : f.Owned) (harrives : Arrives f l a)
    (hreserves : p.Reserves l.preparationPc l.loopPc l.stateBase) (hloop : l.loopPc < p.sizecode)
    {message : String} (h : emitExit p l block message e = .ok () e') :
    f.Fragment e.builder e'.builder (∀ first, Placed f a e.builder block first l.carried.length →
      ExitRuns f host p l a block first) := by
  simp only [emitExit, bind_run_eq_ok, check_eq_ok] at h
  obtain ⟨⟨⟩, e₁, hset, values, e₂, hregisters, ⟨values', returned⟩, e₃, htranslate, hreturned, rfl⟩ :=
    h
  dsimp only at hreturned
  subst hreturned
  have hreturns := returnsPart_of_exit f host hreserves hloop htranslate
  obtain ⟨last, terminator, hgrows, hends⟩ := hreturns.ends
  refine (fragment_of_block howned host a hset hregisters (.of_inBlock (inBlock_of_grows hgrows)
    (ControlFlowFunction.closing_of_ends hends))).imp
      fun hpart hfilled first hplaced s m registers henters _ => ?_
  refine (hfilled.2 first _ hplaced le_rfl).start s m registers _ henters fun hinside => ?_
  exact hreturns.runs hpart s m registers (hinside.length harrives) hinside.holds.known

section terminators

variable {condition : Value} {target target' : Block} {arguments arguments' : List Value}

/-- What emitting a branch has built. -/
lemma emitBranch_run
    (h : emitBranch condition target arguments target' arguments' e = .ok () e') :
    e.builder.branch condition target arguments target' arguments' = .ok e'.builder := by
  obtain ⟨b, hbranch, rfl⟩ := attempt_eq_ok.mp h
  exact hbranch

/-- What emitting a jump has built. -/
lemma emitJump_run (h : emitJump target arguments e = .ok () e') :
    e.builder.jump target arguments = .ok e'.builder := by
  obtain ⟨b, hjump, rfl⟩ := attempt_eq_ok.mp h
  exact hjump

/-- A branch leaves what was there in place. -/
lemma partOf_emitBranch
    (h : emitBranch condition target arguments target' arguments' e = .ok () e') :
    e.builder.function.PartOf e'.builder.function :=
  ControlFlowFunction.partOf_setTerminator (Ends.branch (emitBranch_run h)).set

/-- A jump leaves what was there in place. -/
lemma partOf_emitJump (h : emitJump target arguments e = .ok () e') :
    e.builder.function.PartOf e'.builder.function :=
  ControlFlowFunction.partOf_setTerminator (Ends.jump (emitJump_run h)).set

/-- What a branch takes is valid. -/
lemma valid_of_emitBranch
    (h : emitBranch condition target arguments target' arguments' e = .ok () e') :
    condition.valid ∧ ∀ v ∈ arguments, v.valid := by
  obtain ⟨hcondition, hedge, -⟩ := ControlFlowFunction.branch_eq_ok (emitBranch_run h)
  exact ⟨hcondition.1, fun v hv =>
    (ControlFlowFunction.validValue_of_validateEdge hedge v hv).1⟩

/-- The arguments of a jump have values. -/
lemma valid_of_emitJump (h : emitJump target arguments e = .ok () e') :
    ∀ v ∈ arguments, v.valid := by
  obtain ⟨hedge, -⟩ := ControlFlowFunction.jump_eq_ok (emitJump_run h)
  exact fun v hv => (ControlFlowFunction.validValue_of_validateEdge hedge v hv).1

/-- A branch closes its block. -/
lemma closing_emitBranch
    (h : emitBranch condition target arguments target' arguments' e = .ok () e') :
    f.Closing e.builder e'.builder True :=
  ControlFlowFunction.closing_of_ends (.branch (emitBranch_run h))

/-- A jump closes its block. -/
lemma closing_emitJump (h : emitJump target arguments e = .ok () e') :
    f.Closing e.builder e'.builder True :=
  ControlFlowFunction.closing_of_ends (.jump (emitJump_run h))

end terminators

section iterations

variable {guarded : Option GuardedBodyPlan} (haccepted : AcceptedLoop p l guarded)
  {c step index : Word} (hlooping : l.Looping registers c step index)
include haccepted hlooping

/-- The machine at the end of the last iteration. -/
lemma agrees_last (hcount : c = 0) {r : EStateM.Result Status Machine Word}
    (h : Agrees p ⟨l.loopPc + 1, registers⟩ r) : Agrees p ⟨l.loopPc, registers⟩ r := by
  have hstep := (Vm.step_forLoop haccepted (s := ⟨l.loopPc, registers⟩) rfl hlooping.count
    hlooping.step hlooping.index).1
  rw [if_pos hcount] at hstep
  exact h.of_step hstep

/-- The machine at the end of another iteration. -/
lemma agrees_again (hcount : c ≠ 0) {r : EStateM.Result Status Machine Word}
    (h : Agrees p ⟨l.preparationPc + 1, l.advance registers (c - 1) (index + step)⟩ r) :
    Agrees p ⟨l.loopPc, registers⟩ r := by
  have hstep := (Vm.step_forLoop haccepted (s := ⟨l.loopPc, registers⟩) rfl hlooping.count
    hlooping.step hlooping.index).1
  rw [if_neg hcount] at hstep
  exact h.of_step hstep

end iterations

/-- What an edge to another iteration passes on, besides the carried registers. -/
def PassedOn (l : LoopSite) (first : Nat) (extra : List Value) (s s' : Values) : Prop :=
  ∀ k < extra.length, s'.word (.ofIndex (first + l.carried.length + k)) =
    s.word (extra.getD k .invalid)

/-- What follows the carried registers is passed on with them. -/
lemma passedOn_of_passes {arguments extra : List Value} {s' : Values}
    (h : ControlFlowFunction.Passes first count (arguments ++ extra) s s')
    (hlength : arguments.length = l.carried.length)
    (hcount : (arguments ++ extra).length = count) : PassedOn l first extra s s' := by
  intro k hk
  rw [List.length_append] at hcount
  rw [Nat.add_assoc, h.word _ (by omega), List.getD, List.getElem?_append_right (by omega), hlength,
    Nat.add_sub_cancel_left, List.getD]

section edges

variable {guarded : Option GuardedBodyPlan} {c index : Word} {completed extra : List Value}
  {nextIndex : Value} {again : Block} {aFirst aCount : Nat}
  (haccepted : AcceptedLoop p l guarded) (harrives : Arrives f l a)
  (hpart : e'.builder.function.PartOf f) (hagain : Placed f a e.builder again aFirst aCount)
  (hlength : completed.length = l.carried.length)
  (hsupplies : Supplies l a.limit registers s completed) (hkeeps : Keeps a.bound a.values s)
  (hlooping : l.Looping registers c a.step index) (hindex : s.word nextIndex = index + a.step)
include haccepted harrives hpart hagain hlength hsupplies hkeeps hlooping hindex

omit haccepted harrives hpart hlooping in
/-- The latch enters the next iteration. -/
lemma enters_again {s' : Values}
    (hcount : (l.withIndex completed nextIndex ++ extra).length = aCount)
    (hpasses : ControlFlowFunction.Passes aFirst aCount (l.withIndex completed nextIndex ++ extra)
      s s') : Enters l a aFirst (l.advance registers (c - 1) (index + a.step)) s' ∧
      PassedOn l aFirst extra s s' := by
  have hwith := length_withIndex (v := nextIndex) hlength
  have hle : l.carried.length ≤ aCount := by
    rw [List.length_append, hwith] at hcount
    omega
  exact ⟨enters_of_passes hpasses hle hkeeps hagain.bound
    ((hsupplies.withIndex hlength hindex (c - 1)).append hwith extra),
    passedOn_of_passes hpasses hwith hcount⟩

/-- The end of an iteration that is certain to be followed by another one. -/
lemma yields_next (hcount : c ≠ 0)
    (hjump : emitJump again (l.withIndex completed nextIndex ++ extra) e = .ok () e')
    (hnext : ∀ s', Enters l a aFirst (l.advance registers (c - 1) (index + a.step)) s' →
      PassedOn l aFirst extra s s' → f.YieldsAt host again s' m
        (Agrees p ⟨l.preparationPc + 1, l.advance registers (c - 1) (index + a.step)⟩)) :
    f.Yields host e.builder s m (Agrees p ⟨l.loopPc, registers⟩) := by
  refine .jump_to (emitJump_run hjump) hpart hagain.created.parameters
    (hkeeps.length.trans harrives.length) fun hlengths s' hpasses => ?_
  obtain ⟨henters, hpassed⟩ := enters_again hagain hlength hsupplies hkeeps hindex hlengths hpasses
  exact (hnext s' henters hpassed).mono fun r => agrees_again haccepted hlooping hcount

/-- The end of an iteration: the loop goes on as the machine does. -/
lemma yields_latch {condition : Value} {exit : Block} {xFirst : Nat}
    (hexit : Placed f a e.builder exit xFirst l.carried.length)
    (hbranch : emitBranch condition again (l.withIndex completed nextIndex ++ extra) exit completed e =
      .ok () e')
    (hcondition : s.word condition ≠ 0 ↔ c ≠ 0)
    (hnext : c ≠ 0 → ∀ s', Enters l a aFirst (l.advance registers (c - 1) (index + a.step)) s' →
      PassedOn l aFirst extra s s' → f.YieldsAt host again s' m
        (Agrees p ⟨l.preparationPc + 1, l.advance registers (c - 1) (index + a.step)⟩))
    (hexitRuns : ExitRuns f host p l a exit xFirst) :
    f.Yields host e.builder s m (Agrees p ⟨l.loopPc, registers⟩) := by
  refine .branch_to (emitBranch_run hbranch) hpart hagain.created.parameters
    hexit.created.parameters (hkeeps.length.trans harrives.length)
    (fun hne hlengths s' hpasses => ?_) fun hzero hlengths s' hpasses => ?_
  · have hcount := hcondition.mp hne
    obtain ⟨henters, hpassed⟩ := enters_again hagain hlength hsupplies hkeeps hindex hlengths hpasses
    exact (hnext hcount s' henters hpassed).mono fun r => agrees_again haccepted hlooping hcount
  · have hcount : c = 0 := by
      by_contra hne
      exact hcondition.mpr hne hzero
    have henters := enters_of_passes hpasses le_rfl hkeeps hexit.bound hsupplies
    exact (hexitRuns s' m registers henters trivial).mono fun r => agrees_last haccepted hlooping hcount

end edges

/-! ## Copies of the body -/

/-- The index after a number of steps. -/
abbrev indexAfter (index step : Word) (n : Nat) : Word := index + BitVec.ofNat 64 n * step

/-- The index after one more step. -/
lemma indexAfter_succ (index step : Word) (n : Nat) :
    indexAfter (index + step) step n = indexAfter index step (n + 1) := by
  have hsucc : BitVec.ofNat 64 (n + 1) = BitVec.ofNat 64 n + 1#64 := BitVec.ofNat_add n 1
  rw [indexAfter, indexAfter, hsucc, BitVec.add_mul, BitVec.one_mul, BitVec.add_assoc,
    BitVec.add_comm step]

/-- A nonzero count is one more than its predecessor. -/
lemma toNat_pred {c : Word} (h : c ≠ 0) : (c - 1).toNat + 1 = c.toNat := by
  have hpos : c.toNat ≠ 0 := fun hzero => h (BitVec.eq_of_toNat_eq hzero)
  have hone : (1 : Word).toNat = 1 := rfl
  rw [BitVec.toNat_sub_of_le (by rw [BitVec.le_def, hone]; omega), hone]
  omega

/-- Counting down once and then several times. -/
lemma sub_one_sub_ofNat (c : Word) (n : Nat) :
    c - 1 - BitVec.ofNat 64 n = c - BitVec.ofNat 64 (n + 1) := by
  have hsucc : BitVec.ofNat 64 (n + 1) = BitVec.ofNat 64 n + 1#64 := BitVec.ofNat_add n 1
  rw [hsucc]
  bv_omega

/-- Copies of the body, between which the machine goes around the loop. -/
structure CopiesBody (f : ControlFlowFunction) (host : Host) (p : Proto) (l : LoopSite) (a : Arrival)
    (copies : Nat) (values values' : List Value) (b b' : ControlFlowBuilder) : Prop where
  grows : Code.Grows b b'
  runs : b'.function.PartOf f →
    (b.accepts → (values.getD (l.stateBase + 2) .invalid).valid) →
    ∀ s m registers (c index : Word), Inside l a values registers b.function.nodes.length s →
      l.Looping registers c a.step index → copies - 1 ≤ c.toNat →
      (∀ s' registers', Inside l a values' registers' b'.function.nodes.length s' →
        l.Looping registers' (c - BitVec.ofNat 64 (copies - 1)) a.step
          (indexAfter index a.step (copies - 1)) →
        Keeps b.function.nodes.length s s' →
        f.Yields host b' s' m (Agrees p ⟨l.loopPc, registers'⟩)) →
      f.Yields host b s m (Agrees p ⟨l.preparationPc + 1, registers⟩)

/-- The values at the start of the next copy. -/
lemma Inside.advance {values : List Value} {b' : Nat} {s' : Values} {c index : Word} {v : Value}
    {bound : Nat} (h : Inside l a values registers bound s) (hkeeps : Keeps bound s s')
    (hle : bound ≤ b') (hlt : v.valid → v.index < b') (hword : v.valid → s'.word v = index) :
    Inside l a (values.set (l.stateBase + 2) v) (l.advance registers c index) b' s' := by
  refine ⟨h.le.trans hle, h.keeps.trans hkeeps h.le, ?_⟩
  have hwritten : HoldsWords (· ≠ l.stateBase) (values.set (l.stateBase + 2) v)
      (Function.update (l.view a.limit registers) (l.stateBase + 2) (some index)) b' s' :=
    h.holds.write hkeeps hle (fun _ hr => .inr hr) hlt hword
  exact hwritten.mono (fun _ hr => hr) (fun _ hr => LoopSite.view_advance hr) (.refl _ s') le_rfl

section copies

variable {guarded : Option GuardedBodyPlan} (haccepted : AcceptedLoop p l guarded)
  (harrives : Arrives f l a) (hreserves : p.Reserves l.preparationPc l.loopPc l.stateBase)
include haccepted harrives hreserves

/-- Emitted copies of the body run it as often. -/
lemma copiesBody_of_emitCopies (host : Host) {n : Nat} {values values' : List Value}
    (h : emitCopies p l (n + 1) values e = .ok values' e') :
    CopiesBody f host p l a (n + 1) values values' e.builder e'.builder := by
  have hloop := haccepted.latch.1
  have hinside : l.preparationPc + 1 ≤ l.loopPc := by
    have heq := haccepted.loop
    omega
  induction n generalizing e values with
  | zero =>
      simp only [emitCopies, bind_run_eq_ok, if_true, pure_run_eq_ok] at h
      obtain ⟨⟨values₁, returned⟩, e₁, htranslate, rfl, rfl⟩ := h
      obtain ⟨-, hpasses⟩ := passesPart_of_translate f host a harrives hreserves hloop le_rfl hinside
        le_rfl htranslate
      refine ⟨hpasses.grows, fun hpart _ s m registers c index hs hlooping _ hnext => ?_⟩
      refine hpasses.runs hpart s m registers hs fun s' registers' hs' hkept hkeeps => ?_
      refine hnext s' registers' hs' ?_ hkeeps
      simpa [indexAfter] using hlooping.of_kept hkept
  | succ n ih =>
      rw [emitCopies] at h
      simp only [bind_run_eq_ok, if_neg (Nat.succ_ne_zero n)] at h
      obtain ⟨⟨values₁, returned⟩, e₁, htranslate, v, e₂, hadd, hcopies⟩ := h
      obtain ⟨-, hpasses⟩ := passesPart_of_translate f host a harrives hreserves hloop le_rfl hinside
        le_rfl htranslate
      have hrest := ih hcopies
      have hv := computes_emitBinary (f.code host) hadd
      have hgrows := hpasses.grows.trans (grows_emitBinary hadd)
      refine ⟨hgrows.trans hrest.grows, fun hpart hindex s m registers c index hs hlooping hle hnext => ?_⟩
      have hpart₂ := (inBlock_of_grows hrest.grows).part.trans hpart
      have hpart₁ := (inBlock_of_grows (grows_emitBinary hadd)).part.trans hpart₂
      refine hpasses.runs hpart₁ s m registers hs fun s₁ registers₁ hs₁ hkept hkeeps₁ => ?_
      have hlooping₁ := hlooping.of_kept hkept
      have hstate := hpasses.state (l.stateBase + 2) (by omega)
      have hready : e₁.builder.accepts → (values₁.getD (l.stateBase + 2) .invalid).valid := by
        intro haccepts
        rw [hstate]
        exact hindex (hpasses.grows.accepts haccepts)
      have hstep : l.step.index < e₁.builder.function.nodes.length := harrives.step.1.trans_le hs₁.le
      obtain ⟨s₂, hleads, hkeeps₂, hword⟩ := hv.leads
        (fun haccepts => ⟨(hs₁.holds.word_index hlooping₁ (hready haccepts)).1, harrives.valid.2.2,
          hstep⟩) hpart₂ s₁ m (hs₁.length harrives)
      have hcount : c ≠ 0 := by
        rintro rfl
        exact absurd hle (by simp)
      have hs₂ : Inside l a (values₁.set (l.stateBase + 2) v)
          (l.advance registers₁ (c - 1) (index + a.step)) e₂.builder.function.nodes.length s₂ := by
        refine hs₁.advance hkeeps₂ (grows_emitBinary hadd).size_le hv.index_lt fun hvalid => ?_
        have haccepts := accepts_of_emitBinary hadd hvalid
        rw [hword hvalid, (hs₁.holds.word_index hlooping₁ (hready haccepts)).2,
          hs₁.keeps.word _ harrives.step.1, harrives.step.2]
        rfl
      refine hleads _ ((f.code host).mono (fun r => agrees_again haccepted hlooping₁ hcount) ?_)
      refine hrest.runs hpart (fun haccepts => ?_) s₂ m _ _ _ hs₂ (hlooping₁.advance _ _) ?_ ?_
      · have haccepts₁ := (grows_emitBinary hadd).accepts haccepts
        have hlt : l.stateBase + 2 < values₁.length := by
          by_contra hge
          have hvalid := hready haccepts₁
          rw [List.getD, List.getElem?_eq_none (not_lt.mp hge)] at hvalid
          exact not_valid_invalid hvalid
        rw [List.getD, List.getElem?_set_self hlt, Option.getD_some]
        exact valid_of_emitBinary hadd haccepts₁
      · have hpred := toNat_pred hcount
        omega
      · intro s₃ registers₃ hs₃ hlooping₃ hkeeps₃
        rw [Nat.add_sub_cancel, sub_one_sub_ofNat, indexAfter_succ] at hlooping₃
        exact hnext s₃ registers₃ hs₃ hlooping₃ ((hkeeps₁.trans hkeeps₂ hpasses.grows.size_le).trans
          hkeeps₃ hgrows.size_le)

end copies

end latches

end UniJit.Lua
