import UniJit.Lua.CountedLoops

/-!
# Loops with a condition in their body

A body with a condition is translated into four blocks for each iteration: the code up to the
comparison, the action, the alternative, and the rest of the body. Code and machine decide the
condition alike (`obtains_comparisonValue`), and each of the blocks ends as the machine does from
the position that it stands for (`RunsAt`). The action may leave the loop, or the function; the
other ways come to the end of the iteration, which is counted (`fragment_emitIteration`).
-/

namespace UniJit.Lua

open UniJit.Ir UniJit.Lib UniJit.Runtime LawfulScalarBuilder ControlFlowBuilder

/-! ## The condition -/

section comparison

variable {f : ControlFlowFunction} {host : Host} {p : Proto} {l : LoopSite} {a : Arrival}
  {e e' : Emitter ControlFlowBuilder} {s : Values} {m : Machine} {registers : Registers}
  {values : List Value} {pc : Nat} {v lhs rhs : Value}

/-- The second operand of a condition. -/
def RightOperand (p : Proto) (pc : Nat) (values : List Value) (e : Emitter ControlFlowBuilder)
    (rhs : Value) (e' : Emitter ControlFlowBuilder) : Prop :=
  match (p.fetch pc).opcode with
  | .eq | .lt | .le => validRegister values (p.fetch pc).B ∧
      rhs = values.getD (p.fetch pc).B .invalid ∧ e = e'
  | .eqK => ∃ w, p.integerConstant (p.fetch pc).B = some w ∧ emitConstant w e = .ok rhs e'
  | _ => emitConstant (BitVec.ofInt 64 (p.fetch pc).sB) e = .ok rhs e'

/-- The comparison of a condition. -/
def OpCode.emitRelation (opcode : OpCode) (lhs rhs : Value) : EmitGraph Value :=
  match opcode with
  | .lt | .ltI => emitBinary .lessThan lhs rhs
  | .le | .leI => emitBinary .lessEqual lhs rhs
  | .gtI => emitBinary .lessThan rhs lhs
  | .geI => emitBinary .lessEqual rhs lhs
  | _ => emitBinary .equal lhs rhs

/-- What emitting the comparison of a guarded body has built. -/
lemma comparisonValue_run (h : comparisonValue p pc values e = .ok v e') :
    validRegister values (p.fetch pc).A ∧ v.valid ∧ ∃ rhs e₁, RightOperand p pc values e rhs e₁ ∧
      (p.fetch pc).opcode.emitRelation (values.getD (p.fetch pc).A .invalid) rhs e₁ = .ok v e' := by
  simp only [comparisonValue, bind_run_eq_ok, check_eq_ok] at h
  obtain ⟨-, _, ⟨hlhs, rfl⟩, hrest⟩ := h
  refine ⟨hlhs, ?_⟩
  unfold RightOperand OpCode.emitRelation
  generalize (p.fetch pc).opcode = opcode at hrest ⊢
  cases opcode
  case eq | lt | le =>
    simp only [bind_run_eq_ok, check_eq_ok, pure_run_eq_ok] at hrest
    obtain ⟨-, _, ⟨hright, rfl⟩, _, _, ⟨rfl, rfl⟩, relation, e₂, hrelation, -, _, ⟨hvalid, rfl⟩, rfl,
      rfl⟩ := hrest
    exact ⟨hvalid, _, _, ⟨hright, rfl, rfl⟩, hrelation⟩
  case eqK =>
    rcases hconstant : p.integerConstant (p.fetch pc).B with - | w
    · rw [hconstant] at hrest
      obtain ⟨_, _, hthrow, -⟩ := bind_run_eq_ok.mp hrest
      exact absurd hthrow throw_run_ne_ok
    · simp only [hconstant, bind_run_eq_ok, check_eq_ok, pure_run_eq_ok] at hrest
      obtain ⟨rhs, e₁, hrhs, relation, e₂, hrelation, -, _, ⟨hvalid, rfl⟩, rfl, rfl⟩ := hrest
      exact ⟨hvalid, _, _, ⟨w, rfl, hrhs⟩, hrelation⟩
  all_goals
    simp only [bind_run_eq_ok, check_eq_ok, pure_run_eq_ok] at hrest
    obtain ⟨rhs, e₁, hrhs, relation, e₂, hrelation, -, _, ⟨hvalid, rfl⟩, rfl, rfl⟩ := hrest
    exact ⟨hvalid, _, _, hrhs, hrelation⟩

/-- Emitting a relation only adds scalar operations. -/
lemma grows_emitRelation {opcode : OpCode} (h : opcode.emitRelation lhs rhs e = .ok v e') :
    Code.Grows e.builder e'.builder := by
  unfold OpCode.emitRelation at h
  split at h <;> exact grows_emitBinary h

/-- Emitting the right operand only adds scalar operations. -/
lemma RightOperand.grows (h : RightOperand p pc values e rhs e') :
    Code.Grows e.builder e'.builder := by
  unfold RightOperand at h
  split at h
  case h_4 =>
    obtain ⟨w, -, hconstant⟩ := h
    exact grows_emitConstant hconstant
  case h_5 => exact grows_emitConstant h
  all_goals
    obtain ⟨-, -, rfl⟩ := h
    exact .refl _

/-- Emitting the comparison only adds scalar operations. -/
lemma grows_comparisonValue (h : comparisonValue p pc values e = .ok v e') :
    Code.Grows e.builder e'.builder := by
  obtain ⟨-, -, rhs, e₁, hright, hrelation⟩ := comparisonValue_run h
  exact hright.grows.trans (grows_emitRelation hrelation)

/-- A relation has a value only when the builder accepted it. -/
lemma accepts_of_emitRelation {opcode : OpCode} (h : opcode.emitRelation lhs rhs e = .ok v e')
    (hvalid : v.valid) : e.builder.accepts := by
  unfold OpCode.emitRelation at h
  split at h <;> exact accepts_of_emitBinary h hvalid

/-- A comparison decides as the machine does. -/
lemma obtains_emitRelation (host : Host) {opcode : OpCode}
    (h : opcode.emitRelation lhs rhs e = .ok v e') (haccepts : e.builder.accepts)
    (hpart : e'.builder.function.PartOf f) (hlength : s.words.length = f.nodes.length)
    (hlhs : lhs.valid ∧ lhs.index < e.builder.function.nodes.length)
    (hrhs : rhs.valid ∧ rhs.index < e.builder.function.nodes.length) (m : Machine) :
    ∃ s', Obtains (f.code host) e e' v s m
      (wordOfBool (opcode.compares (s.word lhs) (s.word rhs))) s' := by
  have hforward : ∀ {o : BinaryOpcode}, emitBinary o lhs rhs e = .ok v e' →
      ∃ s', Obtains (f.code host) e e' v s m
        (evaluateBinary host.float o (s.word lhs) (s.word rhs)) s' :=
    fun ho => obtains_emitBinary (f.code host) ho haccepts hpart hlength hlhs.2 hrhs m
  have hbackward : ∀ {o : BinaryOpcode}, emitBinary o rhs lhs e = .ok v e' →
      ∃ s', Obtains (f.code host) e e' v s m
        (evaluateBinary host.float o (s.word rhs) (s.word lhs)) s' :=
    fun ho => obtains_emitBinary (f.code host) ho haccepts hpart hlength hrhs.2 hlhs m
  cases opcode
  case gtI | geI => exact hbackward h
  all_goals exact hforward h

/-- A comparison reads its first register. -/
lemma mem_reads_comparison (h : isIntegerComparison (p.fetch pc).opcode = true) :
    (p.fetch pc).A ∈ (p.fetch pc).reads := by
  unfold Instruction.reads
  rcases hopcode : (p.fetch pc).opcode
  all_goals simp only [hopcode, isIntegerComparison, Bool.false_eq_true] at h
  all_goals simp

section operands

variable (harrives : Arrives f l a) (hcomparison : isIntegerComparison (p.fetch pc).opcode = true)
  (hreads : ∀ r ∈ (p.fetch pc).reads, l.Known r)
  (hs : Inside l a values registers e.builder.function.nodes.length s)
include hs

omit harrives in
/-- A known register is held by its value. -/
lemma Inside.register {r : Nat} (hr : l.Known r) (hvalid : (values.getD r .invalid).valid) :
    (values.getD r .invalid).index < e.builder.function.nodes.length ∧
      registers r = some (s.word (values.getD r .invalid)) := by
  obtain ⟨hlt, hregister⟩ := hs.holds r hr.1 hvalid
  rw [LoopSite.view_of_known hr] at hregister
  exact ⟨hlt, hregister⟩

include harrives hcomparison hreads

/-- The operands of a condition are those of the machine. -/
lemma obtains_rightOperand (host : Host) {e₁ : Emitter ControlFlowBuilder}
    (hlhs : validRegister values (p.fetch pc).A)
    (h : RightOperand p pc values e rhs e₁) (haccepts : e₁.builder.accepts)
    (hpart : e₁.builder.function.PartOf f) (m : Machine) :
    rhs.valid ∧ rhs.index < e₁.builder.function.nodes.length ∧
      ∃ s', (f.code host).Leads e.builder s m e₁.builder s' m ∧
        Keeps e.builder.function.nodes.length s s' ∧
        Vm.operands p ⟨pc, registers⟩ (p.fetch pc) =
          some (s'.word (values.getD (p.fetch pc).A .invalid), s'.word rhs) := by
  have hlength := hs.length harrives
  have hconstant : ∀ {w : Word}, emitConstant w e = .ok rhs e₁ →
      rhs.valid ∧ rhs.index < e₁.builder.function.nodes.length ∧
        ∃ s', (f.code host).Leads e.builder s m e₁.builder s' m ∧
          Keeps e.builder.function.nodes.length s s' ∧ s'.word rhs = w := by
    intro w hw
    obtain ⟨s', h'⟩ := obtains_emitConstant (f.code host) hw
      ((grows_emitConstant hw).accepts haccepts) hpart hlength m
    exact ⟨h'.valid, h'.index_lt, s', h'.leads, h'.keeps, h'.word⟩
  unfold RightOperand at h
  unfold Instruction.reads at hreads
  unfold Vm.operands
  rcases hopcode : (p.fetch pc).opcode
  all_goals simp only [hopcode, isIntegerComparison, Bool.false_eq_true] at hcomparison
  all_goals simp only [hopcode] at h hreads ⊢
  case eq | lt | le =>
    obtain ⟨hright, rfl, rfl⟩ := h
    obtain ⟨-, hx⟩ := hs.register (hreads _ (by simp)) hlhs.2
    obtain ⟨hlt, hy⟩ := hs.register (hreads (p.fetch pc).B (by simp)) hright.2
    exact ⟨hright.2, hlt, s, .refl, .refl _ s, by rw [hx, hy]; rfl⟩
  case eqK =>
    obtain ⟨w, hw, h⟩ := h
    obtain ⟨hlt, hx⟩ := hs.register (hreads _ (by simp)) hlhs.2
    obtain ⟨hvalid, hindex, s', hleads, hkeeps, hword⟩ := hconstant h
    refine ⟨hvalid, hindex, s', hleads, hkeeps, ?_⟩
    rw [hx, hw, hword, hkeeps.word _ hlt]
    rfl
  all_goals
    obtain ⟨hlt, hx⟩ := hs.register (hreads _ (by simp)) hlhs.2
    obtain ⟨hvalid, hindex, s', hleads, hkeeps, hword⟩ := hconstant h
    refine ⟨hvalid, hindex, s', hleads, hkeeps, ?_⟩
    rw [hx, hword, hkeeps.word _ hlt]
    rfl

/-- Code and machine decide the condition alike. -/
lemma obtains_comparisonValue (host : Host) (h : comparisonValue p pc values e = .ok v e')
    (hpart : e'.builder.function.PartOf f) (m : Machine) :
    ∃ s' x y, (f.code host).Leads e.builder s m e'.builder s' m ∧
      Keeps e.builder.function.nodes.length s s' ∧
      Vm.operands p ⟨pc, registers⟩ (p.fetch pc) = some (x, y) ∧
      s'.word v = wordOfBool ((p.fetch pc).opcode.compares x y) := by
  obtain ⟨hlhs, hvalid, rhs, e₁, hright, hrelation⟩ := comparisonValue_run h
  have haccepts := accepts_of_emitRelation hrelation hvalid
  have hpart₁ := (inBlock_of_grows (grows_emitRelation hrelation)).part.trans hpart
  obtain ⟨hrhs, hindex, s₁, hleads, hkeeps, hoperands⟩ := obtains_rightOperand harrives
    hcomparison hreads hs host hlhs hright haccepts hpart₁ m
  have hlt := (hs.register (hreads _ (mem_reads_comparison hcomparison)) hlhs.2).1
  have hsize := hright.grows.size_le
  obtain ⟨s', h'⟩ := obtains_emitRelation host hrelation haccepts hpart
    (hkeeps.length.trans (hs.length harrives)) ⟨hlhs.2, hlt.trans_le hsize⟩ ⟨hrhs, hindex⟩ m
  exact ⟨s', _, _, hleads.trans h'.leads, hkeeps.trans h'.keeps hsize,
    hoperands, h'.word⟩

end operands

/-- The condition at `pc` leads to its action or to the alternative. -/
lemma Vm.step_comparison {target : Nat} {x y : Word}
    (hcomparison : isIntegerComparison (p.fetch pc).opcode = true)
    (htarget : jumpAt p (pc + 1) = target)
    (hxy : Vm.operands p ⟨pc, registers⟩ (p.fetch pc) = some (x, y)) :
    Vm.step p ⟨pc, registers⟩ =
      some (.next ⟨if TakesAction p pc x y then pc + 2 else target, registers⟩) := by
  have hcompares : Vm.step p ⟨pc, registers⟩ = Vm.comparison p ⟨pc, registers⟩ (p.fetch pc) := by
    unfold Vm.step
    rcases hopcode : (p.fetch pc).opcode
    all_goals simp only [hopcode, isIntegerComparison, Bool.false_eq_true] at hcomparison
    all_goals simp only [hopcode]
  have hjump : jumpTarget (pc + 1) (p.fetch (pc + 1)).sJ = target := by
    rw [jumpTarget, ← jumpAt, htarget, Int.toNat_natCast]
  rw [hcompares, Vm.comparison, hxy, hjump]
  simp only [Option.bind_eq_bind, Option.bind_some]
  split_ifs <;> rfl

end comparison

/-! ## Parts of an iteration -/

/-- Without an alternative, the rest of the body is behind the action. -/
lemma continuationBegin_eq {p : Proto} {loopPc : Nat} {plan : GuardedBodyPlan}
    (hplan : PlanBounds p loopPc plan) (helse : plan.kind ≠ .conditionalElse) :
    plan.continuationBegin = plan.alternateBegin := by
  have hbounds := hplan.kind
  rcases hkind : plan.kind
  all_goals simp only [hkind] at hbounds
  case conditionalElse => exact absurd hkind helse
  case «break» => exact hbounds.2.2
  case «return» => exact hbounds.2.2
  case conditionalBody => exact hbounds.2.2.2.2

/-- A run is in an iteration that at least `k` and fewer than `n` others follow. -/
def InLoop (l : LoopSite) (a : Arrival) (first k n : Nat) (registers : Registers) (s : Values) :
    Prop :=
  ∃ c index, l.Looping registers c a.step index ∧ Counted l first k c index s ∧ c.toNat < n

/-- A point in an iteration, where `remaining` is the number of those that follow. -/
structure Iterating (l : LoopSite) (a : Arrival) (values : List Value) (remaining : Value)
    (registers : Registers) (c index : Word) (bound : Nat) (s : Values) : Prop where
  inside : Inside l a values registers bound s
  looping : l.Looping registers c a.step index
  remaining : remaining.index < bound ∧ s.word remaining = c

/-- From a point in an iteration, a run goes on as the machine does from a position, if it does so
from the block that follows, and from the one behind the loop. -/
def GoesOn (f : ControlFlowFunction) (host : Host) (p : Proto) (l : LoopSite) (a : Arrival)
    (b : ControlFlowBuilder) (values : List Value) (remaining : Value) (pc : Nat) (next : Block)
    (nextPc : Nat) (exit : Block) : Prop :=
  ∀ nFirst xFirst k n, Placed f a b next nFirst (l.carried.length + 1) →
    Placed f a b exit xFirst l.carried.length → ExitRuns f host p l a exit xFirst →
    RunsAt f host p l a next nFirst nextPc (InLoop l a nFirst k n) →
    ∀ s m registers c index,
      Iterating l a values remaining registers c index b.function.nodes.length s →
      k ≤ c.toNat → c.toNat < n → f.Yields host b s m (Agrees p ⟨pc, registers⟩)

/-- A run goes from the start of one block to another one. -/
def LeadsOn (f : ControlFlowFunction) (host : Host) (p : Proto) (l : LoopSite) (a : Arrival)
    (b : ControlFlowBuilder) (block : Block) (pc : Nat) (next : Block) (nextPc : Nat)
    (exit : Block) : Prop :=
  ∀ first nFirst xFirst k n, Placed f a b block first (l.carried.length + 1) →
    Placed f a b next nFirst (l.carried.length + 1) → Placed f a b exit xFirst l.carried.length →
    ExitRuns f host p l a exit xFirst →
    RunsAt f host p l a next nFirst nextPc (InLoop l a nFirst k n) →
    RunsAt f host p l a block first pc (InLoop l a first k n)

section parts

variable {f : ControlFlowFunction} {host : Host} {p : Proto} {l : LoopSite} {a : Arrival}
  {b b' : ControlFlowBuilder} {e e' e₁ e₂ : Emitter ControlFlowBuilder} {s s' : Values} {m : Machine}
  {registers registers' : Registers} {values values' arguments : List Value} {remaining : Value}
  {c index : Word} {block next exit : Block} {first tFirst start stop pc nextPc k n : Nat}

/-- Later code does not disturb the iteration. -/
lemma Iterating.mono {bound bound' : Nat}
    (h : Iterating l a values remaining registers c index bound s) (hkeeps : Keeps bound s s')
    (hle : bound ≤ bound') : Iterating l a values remaining registers c index bound' s' :=
  ⟨h.inside.mono hkeeps hle, h.looping, h.remaining.1.trans_le hle,
    (hkeeps.word _ h.remaining.1).trans h.remaining.2⟩

/-- A part of the body is passed in an iteration. -/
lemma PassesPart.iterates (h : PassesPart f host p l a start stop values values' b b')
    (hpart : b'.function.PartOf f)
    (hs : Iterating l a values remaining registers c index b.function.nodes.length s)
    (hnext : ∀ s' registers',
      Iterating l a values' remaining registers' c index b'.function.nodes.length s' →
      f.Yields host b' s' m (Agrees p ⟨stop, registers'⟩)) :
    f.Yields host b s m (Agrees p ⟨start, registers⟩) := by
  refine h.runs hpart s m registers hs.inside fun s' registers' hs' hkept hkeeps => ?_
  obtain ⟨hlt, hword⟩ := hs.remaining
  exact hnext s' registers' ⟨hs', hs.looping.of_kept hkept, hlt.trans_le h.grows.size_le,
    (hkeeps.word _ hlt).trans hword⟩

/-- The start of a block of an iteration. -/
lemma Filled.iterates (h : Filled f host p l a block first (l.carried.length + 1) values b)
    (hpart : b.function.PartOf f)
    (hruns : ∀ s m registers c index, Iterating l a values
      (b.blockParameter block l.carried.length) registers c index b.function.nodes.length s →
      k ≤ c.toNat → c.toNat < n → f.Yields host b s m (Agrees p ⟨pc, registers⟩)) :
    RunsAt f host p l a block first pc (InLoop l a first k n) := by
  rintro s m registers henters ⟨c, index, hlooping, hcounted, hlt⟩
  refine h.start s m registers _ henters fun hs => ?_
  obtain ⟨hparameter, hindex⟩ := h.remaining (.refl _) hpart
  refine hruns s m registers c index ⟨hs, hlooping, ?_⟩ hcounted.2 hlt
  rw [hparameter]
  exact ⟨hindex, hcounted.1⟩

/-- A block of an iteration, from the code that fills it. -/
lemma fragment_of_part (howned : f.Owned) (hset : setInsertionBlock block e = .ok () e₁)
    (hregisters : blockRegisters p l.carried block e₁ = .ok values e₂)
    (h : f.Closing e₂.builder e'.builder (GoesOn f host p l a e₂.builder values
      (e₂.builder.blockParameter block l.carried.length) pc next nextPc exit)) :
    f.Fragment e.builder e'.builder (LeadsOn f host p l a e.builder block pc next nextPc exit) := by
  have hin : e.builder.function.PartOf e₂.builder.function := by
    obtain ⟨-, rfl⟩ := inspect_run hregisters
    exact partOf_setInsertionBlock (setInsertionBlock_run hset)
  refine (fragment_of_block howned host a hset hregisters h).imp
    fun hpart hfilled first nFirst xFirst k n hblock hnext hexit hexitRuns hruns => ?_
  obtain ⟨hgoes, hstart⟩ := hfilled
  exact (hstart first _ hblock (Nat.le_succ _)).iterates (h.part.trans hpart)
    (hgoes nFirst xFirst k n (hnext.mono hin) (hexit.mono hin) hexitRuns hruns)

/-- What is passed on are the carried registers and the count. -/
lemma countedArguments_run (h : countedArguments l values remaining e = .ok arguments e') :
    arguments = (l.carried.map fun r => values.getD r .invalid) ++ [remaining] ∧ e = e' ∧
      ∀ r ∈ l.carried, (values.getD r .invalid).valid := by
  simp only [countedArguments, bind_run_eq_ok, pure_run_eq_ok] at h
  obtain ⟨completed, e₁, hcompleted, rfl, rfl⟩ := h
  obtain ⟨rfl, rfl, hvalid⟩ := completedRegisters_run hcompleted
  exact ⟨rfl, rfl, hvalid⟩

/-- An edge to another block of the iteration. -/
lemma Iterating.yieldsAt {target : Block} {bound : Nat}
    (hs : Iterating l a values remaining registers c index bound s)
    (hvalid : ∀ r ∈ l.carried, (values.getD r .invalid).valid)
    (htarget : Placed f a b target tFirst (l.carried.length + 1))
    (hruns : RunsAt f host p l a target tFirst pc (InLoop l a tFirst k n))
    (hk : k ≤ c.toNat) (hn : c.toNat < n)
    (hcount : ((l.carried.map fun r => values.getD r .invalid) ++ [remaining]).length =
      l.carried.length + 1)
    (hpasses : ControlFlowFunction.Passes tFirst (l.carried.length + 1)
      ((l.carried.map fun r => values.getD r .invalid) ++ [remaining]) s s') :
    f.YieldsAt host target s' m (Agrees p ⟨pc, registers⟩) := by
  have hlength : (l.carried.map fun r => values.getD r .invalid).length = l.carried.length :=
    List.length_map _
  have hsupplies := supplies_completed hs.inside.holds hvalid
  have henters := enters_of_passes hpasses (Nat.le_succ _) hs.inside.keeps htarget.bound
    (hsupplies.append hlength [remaining])
  exact hruns s' m registers henters ⟨c, index, hs.looping,
    counted_of_passedOn (passedOn_of_passes hpasses hlength hcount) hs.remaining.2 hk, hn⟩

/-- A jump to another block of the iteration. -/
lemma closing_of_jump (harrives : Arrives f l a)
    (harguments : countedArguments l values remaining e = .ok arguments e₁)
    (hjump : emitJump next arguments e₁ = .ok () e') :
    f.Closing e.builder e'.builder
      (GoesOn f host p l a e.builder values remaining pc next pc exit) := by
  obtain ⟨rfl, rfl, hvalid⟩ := countedArguments_run harguments
  refine (closing_emitJump hjump).imp fun hpart _ nFirst xFirst k n hnext _ _ hruns s m registers c
    index hs hk hn => ?_
  exact ControlFlowFunction.Yields.jump_to (emitJump_run hjump) hpart hnext.created.parameters
    (hs.inside.length harrives) fun hcount s' hpasses =>
      hs.yieldsAt hvalid hnext hruns hk hn hcount hpasses

/-- Before a point in an iteration, there is a part of the body. -/
lemma GoesOn.of_part {middle : Nat} (h : GoesOn f host p l a b' values' remaining middle next nextPc exit)
    (hpasses : PassesPart f host p l a start middle values values' b b')
    (hpart : b'.function.PartOf f) :
    GoesOn f host p l a b values remaining start next nextPc exit := by
  intro nFirst xFirst k n hnext hexit hexitRuns hruns s m registers c index hs hk hn
  have hin := (inBlock_of_grows hpasses.grows).part
  exact hpasses.iterates hpart hs fun s' registers' hs' =>
    h nFirst xFirst k n (hnext.mono hin) (hexit.mono hin) hexitRuns hruns s' m registers' c index hs'
      hk hn

/-- At a point in an iteration, the machine jumps. -/
lemma GoesOn.of_jump {target : Nat} (h : GoesOn f host p l a b values remaining target next nextPc exit)
    (hopcode : (p.fetch pc).opcode = .jmp) (htarget : jumpAt p pc = target) :
    GoesOn f host p l a b values remaining pc next nextPc exit := by
  intro nFirst xFirst k n hnext hexit hexitRuns hruns s m registers c index hs hk hn
  have hstep := (Vm.step_of_jump (s := ⟨pc, registers⟩) hopcode htarget).1
  exact (f.code host).mono (fun r hr => hr.of_step hstep)
    (h nFirst xFirst k n hnext hexit hexitRuns hruns s m registers c index hs hk hn)

/-- A jump out of the loop. -/
lemma closing_of_break (harrives : Arrives f l a) {message : String}
    (hopcode : (p.fetch pc).opcode = .jmp) (htarget : jumpAt p pc = l.loopPc + 1)
    (hcompleted : l.completedRegisters values message e = .ok arguments e₁)
    (hjump : emitJump exit arguments e₁ = .ok () e') :
    f.Closing e.builder e'.builder
      (GoesOn f host p l a e.builder values remaining pc next nextPc exit) := by
  obtain ⟨rfl, rfl, hvalid⟩ := completedRegisters_run hcompleted
  refine (closing_emitJump hjump).imp fun hpart _ nFirst xFirst k n _ hexit hexitRuns _ s m registers c
    index hs _ _ => ?_
  have hstep := (Vm.step_of_jump (s := ⟨pc, registers⟩) hopcode
    (by exact_mod_cast htarget : jumpAt p pc = (l.loopPc + 1 : Nat))).1
  refine ControlFlowFunction.Yields.jump_to (emitJump_run hjump) hpart hexit.created.parameters
    (hs.inside.length harrives) fun _ s' hpasses => ?_
  have henters := enters_of_passes hpasses le_rfl hs.inside.keeps hexit.bound
    (supplies_completed hs.inside.holds hvalid)
  exact (hexitRuns s' m registers henters trivial).mono fun r hr => hr.of_step hstep

/-- A return in the loop. -/
lemma closing_of_return (harrives : Arrives f l a)
    (h : ReturnsPart f host p l.Known pc values e.builder e'.builder) :
    f.Closing e.builder e'.builder
      (GoesOn f host p l a e.builder values remaining pc next nextPc exit) := by
  obtain ⟨last, terminator, hgrows, hends⟩ := h.ends
  refine (ControlFlowFunction.Closing.of_inBlock (inBlock_of_grows hgrows)
    (ControlFlowFunction.closing_of_ends hends)).imp fun hpart _ nFirst xFirst k n _ _ _ _ s m
      registers c index hs _ _ => ?_
  exact h.runs hpart s m registers (hs.inside.length harrives) hs.inside.holds.known

section translated

variable {plan : GuardedBodyPlan} (howned : f.Owned) (harrives : Arrives f l a)
  (hreserves : p.Reserves l.preparationPc l.loopPc l.stateBase) (hloop : l.loopPc < p.sizecode)
include harrives hreserves hloop

/-- A part of the body before a point in an iteration. -/
lemma closing_of_translate {returned : Bool} {middle : Nat} (hstart : l.preparationPc + 1 ≤ start)
    (hle : start ≤ middle) (hmiddle : middle ≤ l.loopPc)
    (htranslate : translate p l.bodyRules start middle values e = .ok (values', returned) e₁)
    (h : f.Closing e₁.builder e'.builder
      (GoesOn f host p l a e₁.builder values' remaining middle next nextPc exit)) :
    f.Closing e.builder e'.builder
      (GoesOn f host p l a e.builder values remaining start next nextPc exit) := by
  obtain ⟨-, hpasses⟩ := passesPart_of_translate f host a harrives hreserves hloop hstart hle hmiddle
    htranslate
  exact (ControlFlowFunction.Closing.of_inBlock (inBlock_of_grows hpasses.grows) h).imp
    fun hpart hgoes => hgoes.of_part hpasses (h.part.trans hpart)

variable (hplan : PlanBounds p l.loopPc plan) (hbefore : l.preparationPc + 1 ≤ plan.comparisonPc)
include howned hplan hbefore

/-- What is done when the condition holds. -/
lemma fragment_emitAction (host : Host) {action merge : Block}
    (h : emitAction p l plan action merge exit e = .ok () e') :
    f.Fragment e.builder e'.builder (LeadsOn f host p l a e.builder action plan.actionBegin merge
      plan.continuationBegin exit) := by
  simp only [emitAction, bind_run_eq_ok] at h
  obtain ⟨⟨⟩, e₁, hset, values, e₂, hregisters, remaining, e₃, hinspect, h⟩ := h
  obtain ⟨rfl, rfl⟩ := inspect_run hinspect
  refine fragment_of_part howned hset hregisters ?_
  have haction := hplan.action
  have hend := hplan.actionEnd
  have hinside := hplan.inside
  have halternate := hplan.alternate
  have hbounds := hplan.kind
  rcases hkind : plan.kind
  all_goals simp only [hkind, bind_run_eq_ok, check_eq_ok] at h hbounds
  case «break» =>
    obtain ⟨arguments, e₃, hcompleted, hjump⟩ := h
    exact closing_of_break harrives hbounds.1 hbounds.2.1 hcompleted hjump
  case «return» =>
    obtain ⟨⟨values', returned⟩, e₃, htranslate, hreturned, rfl⟩ := h
    dsimp only at hreturned
    subst hreturned
    exact closing_of_return harrives (returnsPart_of_action f host hreserves hloop (by omega)
      hend.1 (by omega) htranslate)
  case conditionalBody =>
    obtain ⟨⟨values', returned⟩, e₃, htranslate, arguments, e₄, harguments, hjump⟩ := h
    obtain ⟨-, -, -, hnext, hcontinuation⟩ := hbounds
    rw [hnext, ← hcontinuation] at htranslate
    exact closing_of_translate harrives hreserves hloop (by omega) (by omega) hinside.2 htranslate
      (closing_of_jump harrives harguments hjump)
  case conditionalElse =>
    obtain ⟨⟨values', returned⟩, e₃, htranslate, arguments, e₄, harguments, hjump⟩ := h
    obtain ⟨-, -, -, hopcode, htarget, -⟩ := hbounds
    refine closing_of_translate harrives hreserves hloop (by omega) hend.1 (by omega) htranslate ?_
    exact (closing_of_jump harrives harguments hjump).imp fun _ hgoes => hgoes.of_jump hopcode htarget

/-- What is done when the condition does not hold. -/
lemma fragment_emitAlternate (host : Host) (exit : Block) {alternate merge : Block}
    (h : emitAlternate p l plan alternate merge e = .ok () e') :
    f.Fragment e.builder e'.builder (LeadsOn f host p l a e.builder alternate plan.alternateBegin
      merge plan.continuationBegin exit) := by
  simp only [emitAlternate, bind_run_eq_ok] at h
  obtain ⟨⟨⟩, e₁, hset, values, e₂, hregisters, remaining, e₃, hinspect, h⟩ := h
  obtain ⟨rfl, rfl⟩ := inspect_run hinspect
  refine fragment_of_part howned hset hregisters ?_
  have haction := hplan.action
  have hinside := hplan.inside
  have hbounds := hplan.kind
  by_cases helse : plan.kind = .conditionalElse
  · simp only [if_pos helse, bind_run_eq_ok, pure_run_eq_ok] at h
    obtain ⟨⟨values', returned⟩, e₃, htranslate, _, _, ⟨rfl, rfl⟩, arguments, e₄, harguments,
      hjump⟩ := h
    exact closing_of_translate harrives hreserves hloop (by omega) hplan.alternate hinside.2
      htranslate (closing_of_jump harrives harguments hjump)
  · simp only [if_neg helse, bind_run_eq_ok, pure_run_eq_ok] at h
    obtain ⟨_, _, ⟨rfl, rfl⟩, arguments, e₄, harguments, hjump⟩ := h
    rw [← continuationBegin_eq hplan helse]
    exact closing_of_jump harrives harguments hjump

end translated

end parts

/-! ## Iterations -/

/-- From the block that ends an iteration, a run goes to another block or out of the loop. -/
def EndsIteration (f : ControlFlowFunction) (host : Host) (p : Proto) (l : LoopSite) (a : Arrival)
    (b : ControlFlowBuilder) (merge : Block) (pc least : Nat) (again : Block) (k : Nat)
    (exit : Block) : Prop :=
  ∀ mFirst aFirst xFirst n, Placed f a b merge mFirst (l.carried.length + 1) →
    Placed f a b again aFirst (l.carried.length + 1) → Placed f a b exit xFirst l.carried.length →
    ExitRuns f host p l a exit xFirst → BeginsAt f host p l a again aFirst (Counted l aFirst k) n →
    RunsAt f host p l a merge mFirst pc (InLoop l a mFirst least (n + 1))

/-- A body that runs from its block begins the iterations there. -/
lemma beginsAt_of_runsAt {f : ControlFlowFunction} {host : Host} {p : Proto} {l : LoopSite}
    {a : Arrival} {block : Block} {first k n : Nat}
    (h : RunsAt f host p l a block first (l.preparationPc + 1) (InLoop l a first k n)) :
    BeginsAt f host p l a block first (Counted l first k) n :=
  fun s m registers c index henters hlooping hcounted hlt =>
    h s m registers henters ⟨c, index, hlooping, hcounted, hlt⟩

/-- After moving there the insertion point is a block. -/
lemma insertionBlock_of_setInsertionBlock {e e' : Emitter ControlFlowBuilder} {block : Block}
    (h : setInsertionBlock block e = .ok () e') :
    e'.builder.function.validBlock e'.builder.insertionBlock := by
  obtain ⟨hvalid, hbuilder⟩ := setInsertionBlock_eq_ok.mp (setInsertionBlock_run h)
  rw [hbuilder]
  exact hvalid

section iteration

variable {f : ControlFlowFunction} {host : Host} {p : Proto} {l : LoopSite} {a : Arrival}
  {e e' : Emitter ControlFlowBuilder} {plan : GuardedBodyPlan} {merge again exit block : Block}
  {k : Nat} (howned : f.Owned) (haccepted : AcceptedLoop p l (some plan)) (harrives : Arrives f l a)
  (hreserves : p.Reserves l.preparationPc l.loopPc l.stateBase)
  (hplan : PlanBounds p l.loopPc plan) (hbefore : l.preparationPc + 1 ≤ plan.comparisonPc)
include howned haccepted harrives hreserves hplan hbefore

/-- The rest of the body. If the number is not looked at, it is known that another iteration
follows. -/
lemma fragment_emitMerge (host : Host) {checkRemaining : Bool} (hk : checkRemaining = true → k = 0)
    (h : emitMerge p l plan merge again exit checkRemaining e = .ok () e') :
    f.Fragment e.builder e'.builder (EndsIteration f host p l a e.builder merge
      plan.continuationBegin (if checkRemaining then 0 else k + 1) again k exit) := by
  simp only [emitMerge, bind_run_eq_ok, check_eq_ok] at h
  obtain ⟨⟨⟩, e₁, hset, values, e₂, hregisters, ⟨values', returned⟩, e₃, htranslate, remaining, e₄,
    hinspect, -, _, ⟨hindex, rfl⟩, nextIndex, e₅, hadd, one, e₆, htaken, nextRemaining, e₇,
    hsubtract, completed, e₈, hcompleted, h⟩ := h
  obtain ⟨-, rfl⟩ := inspect_run hregisters
  obtain ⟨hremaining, rfl⟩ := inspect_run hinspect
  have hnone := completedRegisters_run hcompleted
  obtain ⟨-, rfl, -⟩ := hnone
  have haction := hplan.action
  have hinside := hplan.inside
  have halternate := hplan.alternate
  obtain ⟨-, hpasses⟩ := passesPart_of_translate f host a harrives hreserves haccepted.latch.1
    (by omega) hinside.2 le_rfl htranslate
  have hlatch := grows_latch hadd htaken hsubtract
  have hclosing : f.Closing e₇.builder e'.builder True := by
    rcases ite_run_eq_ok.mp h with ⟨-, h⟩ | ⟨-, h⟩
    · exact closing_emitBranch h
    · exact closing_emitJump h
  refine (fragment_of_block howned host a hset hregisters (.of_inBlock
    (inBlock_of_grows (hpasses.grows.trans hlatch)) hclosing)).imp
    fun hpart hfilled mFirst aFirst xFirst n hmerge hagain hexit hexitRuns hbegins => ?_
  have hstart := hfilled.2 mFirst _ hmerge (Nat.le_succ _)
  have hin₃ := (inBlock_of_grows hpasses.grows).part
  have hin := (partOf_setInsertionBlock (setInsertionBlock_run hset)).trans hin₃
  have hpart₃ := (inBlock_of_grows hlatch).part.trans (hclosing.part.trans hpart)
  have hparameters : e₃.builder.blockParameter merge l.carried.length =
      e₁.builder.blockParameter merge l.carried.length :=
    ((hstart.remaining hin₃ hpart₃).1).trans (hstart.remaining (.refl _) (hin₃.trans hpart₃)).1.symm
  rw [hparameters] at hremaining
  subst hremaining
  refine hstart.iterates (hin₃.trans hpart₃) fun s m registers c index hs hleast hlt => ?_
  refine hpasses.iterates hpart₃ hs fun s' registers' hs' => ?_
  obtain ⟨hindex', hword⟩ := hs'.remaining
  have htakes : c ≠ 0 → s'.word (e₁.builder.blockParameter merge l.carried.length) - 1 = c - 1 :=
    fun _ => by rw [hword]
  rcases ite_run_eq_ok.mp h with ⟨hcheck, hbranch⟩ | ⟨hcheck, hjump⟩
  · obtain rfl := hk hcheck
    exact yields_counted hadd htaken hsubtract hcompleted haccepted harrives hs'.inside hs'.looping
      hindex ⟨hindex', htakes⟩ (hagain.mono hin) hbegins (fun _ => Nat.zero_le _) hlt hbranch hpart
      ⟨hindex', hword⟩ (hexit.mono hin) hexitRuns
  · rw [if_neg hcheck] at hleast
    have hne : c ≠ 0 := by
      rintro rfl
      exact absurd hleast (Nat.not_succ_le_zero k)
    have hpred := toNat_pred hne
    exact yields_counted_next hadd htaken hsubtract hcompleted haccepted harrives hs'.inside
      hs'.looping hindex ⟨hindex', htakes⟩ (hagain.mono hin) hbegins (fun _ => by omega) hlt hjump
      hpart hne

omit howned haccepted hreserves hbefore in
/-- The condition leads to its action or to the alternative, as the machine does. -/
lemma yields_condition {relation remaining : Value} {values : List Value} {action alternate : Block}
    {s : Values} {m : Machine} {registers : Registers} {c index x y : Word} {n aFirst tFirst : Nat}
    (hcomparison : isIntegerComparison (p.fetch plan.comparisonPc).opcode = true)
    (hbranch : emitBranch relation (if (p.fetch plan.comparisonPc).k = false then action else alternate)
      ((l.carried.map fun r => values.getD r .invalid) ++ [remaining])
      (if (p.fetch plan.comparisonPc).k = false then alternate else action)
      ((l.carried.map fun r => values.getD r .invalid) ++ [remaining]) e = .ok () e')
    (hpart : e'.builder.function.PartOf f)
    (haction : Placed f a e.builder action aFirst (l.carried.length + 1))
    (halternate : Placed f a e.builder alternate tFirst (l.carried.length + 1))
    (hactionRuns : RunsAt f host p l a action aFirst plan.actionBegin (InLoop l a aFirst k n))
    (halternateRuns : RunsAt f host p l a alternate tFirst plan.alternateBegin (InLoop l a tFirst k n))
    (hs : Iterating l a values remaining registers c index e.builder.function.nodes.length s)
    (hvalid : ∀ r ∈ l.carried, (values.getD r .invalid).valid) (hk : k ≤ c.toNat) (hn : c.toNat < n)
    (hxy : Vm.operands p ⟨plan.comparisonPc, registers⟩ (p.fetch plan.comparisonPc) = some (x, y))
    (hword : s.word relation = wordOfBool ((p.fetch plan.comparisonPc).opcode.compares x y)) :
    f.Yields host e.builder s m (Agrees p ⟨plan.comparisonPc, registers⟩) := by
  have hstep := Vm.step_comparison hcomparison hplan.target hxy
  have htakes : ∀ s' : Values, Vm.TakesAction p plan.comparisonPc x y →
      ((l.carried.map fun r => values.getD r .invalid) ++ [remaining]).length =
        l.carried.length + 1 →
      ControlFlowFunction.Passes aFirst (l.carried.length + 1)
        ((l.carried.map fun r => values.getD r .invalid) ++ [remaining]) s s' →
      f.YieldsAt host action s' m (Agrees p ⟨plan.comparisonPc, registers⟩) := by
    intro s' htakes hcount hpasses
    rw [if_pos htakes, ← hplan.action] at hstep
    exact (hs.yieldsAt hvalid haction hactionRuns hk hn hcount hpasses).mono
      fun r hr => hr.of_step hstep
  have hskips : ∀ s' : Values, ¬Vm.TakesAction p plan.comparisonPc x y →
      ((l.carried.map fun r => values.getD r .invalid) ++ [remaining]).length =
        l.carried.length + 1 →
      ControlFlowFunction.Passes tFirst (l.carried.length + 1)
        ((l.carried.map fun r => values.getD r .invalid) ++ [remaining]) s s' →
      f.YieldsAt host alternate s' m (Agrees p ⟨plan.comparisonPc, registers⟩) := by
    intro s' hskips hcount hpasses
    rw [if_neg hskips] at hstep
    exact (hs.yieldsAt hvalid halternate halternateRuns hk hn hcount hpasses).mono
      fun r hr => hr.of_step hstep
  have hcondition : s.word relation ≠ 0 ↔ (p.fetch plan.comparisonPc).opcode.compares x y = true := by
    rw [hword]
    cases (p.fetch plan.comparisonPc).opcode.compares x y <;> simp [wordOfBool]
  have hlength := hs.inside.length harrives
  by_cases hexpected : (p.fetch plan.comparisonPc).k = false
  · rw [if_pos hexpected, if_pos hexpected] at hbranch
    refine .branch_to (emitBranch_run hbranch) hpart haction.created.parameters
      halternate.created.parameters hlength (fun hne hcount s' => htakes s' ?_ hcount)
      fun hzero hcount s' => hskips s' ?_ hcount
    · rw [Vm.TakesAction, hexpected, hcondition.mp hne]
      simp
    · intro htaken
      rw [Vm.TakesAction, hexpected] at htaken
      exact hcondition.mpr (Bool.eq_true_of_not_eq_false htaken) hzero
  · rw [if_neg hexpected, if_neg hexpected] at hbranch
    have hexpected' := Bool.eq_true_of_not_eq_false hexpected
    refine .branch_to (emitBranch_run hbranch) hpart halternate.created.parameters
      haction.created.parameters hlength (fun hne hcount s' => hskips s' ?_ hcount)
      fun hzero hcount s' => htakes s' ?_ hcount
    · rw [Vm.TakesAction, hexpected', hcondition.mp hne]
      exact not_not.mpr rfl
    · intro htaken
      rw [hexpected'] at htaken
      exact hcondition.mpr htaken hzero

/-- One iteration of a body with a condition. -/
lemma fragment_emitIteration (host : Host) {checkRemaining : Bool}
    (hcomparison : isIntegerComparison (p.fetch plan.comparisonPc).opcode = true)
    (hinside : plan.comparisonPc < l.loopPc)
    (hk : checkRemaining = true → k = 0) (hbound : a.bound ≤ e.builder.function.nodes.length)
    (h : emitIteration p l plan exit block again checkRemaining e = .ok () e') :
    f.Fragment e.builder e'.builder (CountsDown f host p l a e.builder block
      (if checkRemaining then 0 else k + 1) again k exit) := by
  simp only [emitIteration, bind_run_eq_ok, check_eq_ok] at h
  obtain ⟨⟨⟩, e₁, hset, values, e₂, hregisters, ⟨values', returned⟩, e₃, htranslate, relation, e₄,
    hrelation, remaining, e₅, hinspect, arguments, e₆, harguments, action, e₇, haction, alternate, e₈,
    halternate, merge, e₉, hmerge, -, _, ⟨hvalid, rfl⟩, h⟩ := h
  obtain ⟨-, rfl⟩ := inspect_run hregisters
  obtain ⟨hremaining, rfl⟩ := inspect_run hinspect
  obtain ⟨rfl, rfl, hcarried⟩ := countedArguments_run harguments
  obtain ⟨e₁₀, e₁₁, e₁₂, hbranch, hactionRuns, halternateRuns, hmergeRuns⟩ : ∃ e₁₀ e₁₁ e₁₂,
      emitBranch relation (if (p.fetch plan.comparisonPc).k = false then action else alternate)
        ((l.carried.map fun r => values'.getD r .invalid) ++ [remaining])
        (if (p.fetch plan.comparisonPc).k = false then alternate else action)
        ((l.carried.map fun r => values'.getD r .invalid) ++ [remaining]) e₉ = .ok () e₁₀ ∧
      emitAction p l plan action merge exit e₁₀ = .ok () e₁₁ ∧
      emitAlternate p l plan alternate merge e₁₁ = .ok () e₁₂ ∧
      emitMerge p l plan merge again exit checkRemaining e₁₂ = .ok () e' := by
    rcases ite_run_eq_ok.mp h with ⟨hexpected, h⟩ | ⟨hexpected, h⟩
    all_goals
      simp only [bind_run_eq_ok] at h
      obtain ⟨⟨⟩, e₁₀, hbranch, ⟨⟩, e₁₁, hactionRuns, ⟨⟩, e₁₂, halternateRuns, hmergeRuns⟩ := h
    · exact ⟨e₁₀, e₁₁, e₁₂, by rwa [if_pos hexpected, if_pos hexpected], hactionRuns, halternateRuns,
        hmergeRuns⟩
    · exact ⟨e₁₀, e₁₁, e₁₂, by rwa [if_neg hexpected, if_neg hexpected], hactionRuns, halternateRuns,
        hmergeRuns⟩
  have hloop := haccepted.latch.1
  have hreads := hreserves.1 plan.comparisonPc hinside (by omega)
  obtain ⟨-, hpasses⟩ := passesPart_of_translate f host a harrives hreserves hloop le_rfl hbefore
    hinside.le htranslate
  have hgrows := grows_comparisonValue hrelation
  have hin₁ := partOf_setInsertionBlock (setInsertionBlock_run hset)
  have hin₃ := (inBlock_of_grows hpasses.grows).part
  have hin₄ := (inBlock_of_grows hgrows).part
  have hbound₄ := hbound.trans ((hin₁.trans hin₃).trans hin₄).nodes.length_le
  obtain ⟨hstill₇, hbound₇, haction⟩ := createBlock_placed howned hbound₄ haction
  obtain ⟨hstill₈, hbound₈, halternate⟩ := createBlock_placed howned hbound₇ halternate
  obtain ⟨hstill₉, -, hmerge⟩ := createBlock_placed howned hbound₈ hmerge
  have hstill := (hstill₇.trans hstill₈).trans hstill₉
  have hactionLeads := fragment_emitAction howned harrives hreserves hloop hplan hbefore host
    hactionRuns
  have halternateLeads := fragment_emitAlternate howned harrives hreserves hloop hplan hbefore host
    exit halternateRuns
  have hmergeLeads := fragment_emitMerge howned haccepted harrives hreserves hplan hbefore host hk
    hmergeRuns
  have hparts := (((closing_emitBranch (f := f) hbranch).and hactionLeads).and halternateLeads).and
    hmergeLeads
  refine (fragment_of_block howned host a hset hregisters (.of_inBlock (inBlock_of_grows
    (hpasses.grows.trans hgrows)) (.of_inBlock hstill.inBlock hparts))).imp
    fun hpart hfilled first gFirst xFirst n hblock hagain hexit hexitRuns hbegins =>
      beginsAt_of_runsAt ?_
  obtain ⟨⟨⟨⟨-, hactionLeads'⟩, halternateLeads'⟩, hmergeLeads'⟩, hstart⟩ := hfilled
  have hpart₁₂ := hmergeLeads.part.trans hpart
  have hpart₁₁ := halternateLeads.part.trans hpart₁₂
  have hpart₁₀ := hactionLeads.part.trans hpart₁₁
  have hin₁₀ := partOf_emitBranch hbranch
  have hpart₉ := hin₁₀.trans hpart₁₀
  have hpart₄ := hstill.inBlock.part.trans hpart₉
  have hpart₃ := hin₄.trans hpart₄
  obtain ⟨aFirst, haction⟩ := haction hvalid.1 _ (hstill₈.inBlock.part.trans hstill₉.inBlock.part)
    hpart₉
  obtain ⟨tFirst, halternate⟩ := halternate hvalid.2.1 _ hstill₉.inBlock.part hpart₉
  obtain ⟨mFirst, hmerge⟩ := hmerge hvalid.2.2 _ (.refl _) hpart₉
  have hinto := ((hin₁.trans hin₃).trans (hin₄.trans hstill.inBlock.part)).trans hin₁₀
  have hin₁₁ := hinto.trans hactionLeads.part
  have hin₁₂ := hin₁₁.trans halternateLeads.part
  have hstart := hstart first _ hblock (Nat.le_succ _)
  have hends := hmergeLeads' mFirst gFirst xFirst n (hmerge.mono (hin₁₀.trans (hactionLeads.part.trans
    halternateLeads.part))) (hagain.mono hin₁₂) (hexit.mono hin₁₂) hexitRuns hbegins
  have htakes := hactionLeads' aFirst mFirst xFirst _ _ (haction.mono hin₁₀) (hmerge.mono hin₁₀)
    (hexit.mono hinto) hexitRuns hends
  have hskips := halternateLeads' tFirst mFirst xFirst _ _
    (halternate.mono (hin₁₀.trans hactionLeads.part)) (hmerge.mono (hin₁₀.trans hactionLeads.part))
    (hexit.mono hin₁₁) hexitRuns hends
  have hparameters : e₄.builder.blockParameter block l.carried.length =
      e₁.builder.blockParameter block l.carried.length :=
    (hstart.remaining (hin₃.trans hin₄) hpart₄).1.trans
      (hstart.remaining (.refl _) (hin₃.trans hpart₃)).1.symm
  rw [hparameters] at hremaining
  subst hremaining
  refine hstart.iterates (hin₃.trans hpart₃) fun s m registers c index hs hleast hlt => ?_
  refine hpasses.iterates hpart₃ hs fun s' registers' hs' => ?_
  obtain ⟨s'', x, y, hleads, hkeeps, hxy, hword⟩ := obtains_comparisonValue harrives hcomparison
    hreads hs'.inside host hrelation hpart₄ m
  refine hleads _ (hstill.yields ?_ ?_)
  · have hinsertion := insertionBlock_of_setInsertionBlock hset
    have hcode := inBlock_of_grows (hpasses.grows.trans hgrows)
    exact hcode.insertionBlock ▸ hcode.part.validBlock hinsertion
  · exact yields_condition harrives hplan hcomparison hbranch hpart₁₀ haction halternate htakes hskips
      ((hs'.mono hkeeps hgrows.size_le).mono (.refl _ s'') hstill.inBlock.part.nodes.length_le)
      hcarried hleast hlt hxy hword

omit howned haccepted harrives hreserves hplan hbefore in
/-- One iteration is followed by others. -/
lemma CountsDown.trans {b : ControlFlowBuilder} {next dispatch : Block} {nFirst : Nat}
    (h : CountsDown f host p l a b block (k + 1) next k exit)
    (h' : CountsDown f host p l a b next k dispatch 0 exit)
    (hnext : Placed f a b next nFirst (l.carried.length + 1)) :
    CountsDown f host p l a b block (k + 1) dispatch 0 exit := by
  intro first dFirst xFirst n hblock hdispatch hexit hexitRuns hbegins s m registers c index henters
    hlooping hcounted hlt
  have hrest := h' nFirst dFirst xFirst n hnext hdispatch hexit hexitRuns hbegins
  exact h first nFirst xFirst (n + 1) hblock hnext hexit hexitRuns hrest s m registers c index henters
    hlooping hcounted (by omega)

section looped

variable (hcomparison : isIntegerComparison (p.fetch plan.comparisonPc).opcode = true)
  (hinside : plan.comparisonPc < l.loopPc)
include hcomparison hinside

/-- The unrolled iterations: only the last one looks at the number. -/
lemma fragment_emitIterations (host : Host) {dispatch : Block} {rest : List Block}
    (hbound : a.bound ≤ e.builder.function.nodes.length)
    (hplaced : e.builder.function.PartOf f → ∀ next ∈ rest, ∃ nFirst,
      Placed f a e.builder next nFirst (l.carried.length + 1))
    (h : emitIterations p l plan exit dispatch (block :: rest) e = .ok () e') :
    f.Fragment e.builder e'.builder
      (CountsDown f host p l a e.builder block rest.length dispatch 0 exit) := by
  induction rest generalizing e block with
  | nil =>
      exact fragment_emitIteration howned haccepted harrives hreserves hplan hbefore host hcomparison
        hinside (fun _ => rfl) hbound h
  | cons next rest ih =>
      obtain ⟨⟨⟩, e₁, hfirst, hrest⟩ := bind_run_eq_ok.mp h
      have hiteration := fragment_emitIteration (k := rest.length) howned haccepted harrives hreserves
        hplan hbefore host hcomparison hinside (fun hcheck => absurd hcheck Bool.false_ne_true) hbound
        hfirst
      have hothers := ih (hbound.trans hiteration.part.nodes.length_le) (fun hpart next' hmem => by
        obtain ⟨nFirst, hnext⟩ := hplaced (hiteration.part.trans hpart) next'
          (List.mem_cons_of_mem _ hmem)
        exact ⟨nFirst, hnext.mono hiteration.part⟩) hrest
      have hin := hiteration.part.trans hothers.part
      refine (hiteration.and hothers).imp fun hpart hcounts => ?_
      obtain ⟨nFirst, hnext⟩ := hplaced (hin.trans hpart) next List.mem_cons_self
      exact hcounts.1.trans (hcounts.2.of_part hiteration.part) hnext

end looped

end iteration

/-! ## The loop -/

section loop

variable {f : ControlFlowFunction} {host : Host} {p : Proto} {l : LoopSite} {a : Arrival}
  {e e' : Emitter ControlFlowBuilder} {plan : GuardedBodyPlan} {dispatch scalar exit : Block}
  {checks unrolled : List Block}

/-- The way into a loop with a condition in its body. -/
def emitEntry (l : LoopSite) (entries : List Block) (step : Symbolic) (dispatch exit : Block)
    (initial : List Value) : EmitGraph Unit :=
  match entries, step with
  | [positive, nonpositive, negative], _ =>
      emitSignedEntry l positive nonpositive negative dispatch exit initial
  | _, .constant value => emitKnownEntry l (0 < value.toInt) dispatch exit initial
  | _, _ => pure ()

/-- A step that is tested has three entry blocks, a known one has none. -/
lemma entries_of_step {entries : List Block} {step : Symbolic}
    (h : entries.length = if step.constant? = none then 3 else 0) :
    (∃ positive nonpositive negative, entries = [positive, nonpositive, negative]) ∨
      entries = [] ∧ ∃ value, step = .constant value := by
  rcases step with - | value | index
  · exact .inl (List.length_eq_three.mp h)
  · exact .inr ⟨List.length_eq_zero_iff.mp h, value, rfl⟩
  · exact .inl (List.length_eq_three.mp h)

/-- What follows the way in. -/
def emitGuardedBlocks (p : Proto) (l : LoopSite) (plan : GuardedBodyPlan)
    (dispatch scalar exit : Block) (checks unrolled : List Block) : EmitGraph Unit := do
  setInsertionBlock dispatch
  emitSafepoint l.preparationPc "unable to insert a guarded-loop safepoint"
  match checks, unrolled with
  | check :: _, first :: _ => emitUnrollChoice l dispatch check first scalar
  | _, _ => do
      let arguments ← blockArguments dispatch (l.carried.length + 1)
      emitJump scalar arguments
  emitIterations p l plan exit dispatch unrolled
  emitIteration p l plan exit scalar dispatch true
  emitExit p l exit "guarded Lua numeric loop has no return"

/-- Without copies, the dispatching block goes on with an iteration. -/
lemma closing_of_plain (harrives : Arrives f l a) {arguments : List Value}
    {e₁ : Emitter ControlFlowBuilder}
    (harguments : blockArguments dispatch (l.carried.length + 1) e = .ok arguments e₁)
    (hjump : emitJump scalar arguments e₁ = .ok () e') :
    f.Closing e.builder e'.builder (Dispatches f host p l a e.builder dispatch [(scalar, 0)]) := by
  obtain ⟨-, rfl⟩ := inspect_run harguments
  refine (closing_emitJump hjump).imp fun hpart _ first n hdispatch htargets s m registers c index
    henters hlooping hcounted hlt => ?_
  obtain ⟨sFirst, hscalar, hbegins⟩ := htargets (scalar, 0) (by simp)
  have hpart₀ := (partOf_emitJump hjump).trans hpart
  obtain ⟨harguments, -⟩ := blockArguments_run hdispatch.created hpart₀ le_rfl harguments
  subst harguments
  exact ControlFlowFunction.Yields.jump_to (emitJump_run hjump) hpart hscalar.created.parameters
    (henters.keeps.length.trans harrives.length) fun _ s' hpasses =>
      yieldsAt_forwarded hscalar hbegins henters hlooping hcounted hlt hpasses

variable (howned : f.Owned) (haccepted : AcceptedLoop p l (some plan)) (harrives : Arrives f l a)
  (hreserves : p.Reserves l.preparationPc l.loopPc l.stateBase)
include howned haccepted harrives hreserves

/-- The blocks of a loop with a condition in its body. -/
lemma emitGuardedBlocks_run (hquiet : ∀ n, host.exitPollRequested n = false)
    (hbound : a.bound ≤ e.builder.function.nodes.length)
    (hlengths : checks.length = 1 ∧ unrolled.length = 8 ∨ checks = [] ∧ unrolled = [])
    (hplaced : e.builder.function.PartOf f → ∀ block ∈ scalar :: checks ++ unrolled, ∃ first,
      Placed f a e.builder block first (l.carried.length + 1))
    (h : emitGuardedBlocks p l plan dispatch scalar exit checks unrolled e = .ok () e') :
    ∃ (targets : List (Block × Nat)) (e₁ e₂ : Emitter ControlFlowBuilder),
      (∀ target ∈ targets, target.1 ∈ scalar :: checks ++ unrolled) ∧
      f.Fragment e.builder e₁.builder (DispatchRuns f host p l a e.builder dispatch targets) ∧
      f.Fragment e₁.builder e₂.builder (∀ target ∈ targets,
        CountsDown f host p l a e₁.builder target.1 target.2 dispatch 0 exit) ∧
      emitExit p l exit "guarded Lua numeric loop has no return" e₂ = .ok () e' := by
  obtain ⟨hbefore, hinside, hcomparison, hplan, -⟩ := findGuardedBody_spec haccepted.guard plan rfl
  rcases hlengths with ⟨hone, height⟩ | ⟨rfl, rfl⟩
  · obtain ⟨check, rfl⟩ := List.length_eq_one_iff.mp hone
    obtain ⟨first, rest, rfl⟩ := List.exists_cons_of_length_eq_add_one height
    have hseven : rest.length = 7 := by simpa using height
    simp only [emitGuardedBlocks, bind_run_eq_ok] at h
    obtain ⟨⟨⟩, e₁, hset, ⟨⟩, e₂, hsafepoint, ⟨⟩, e₃, hchoice, ⟨⟩, e₄, hcopies, ⟨⟩, e₅, hscalar, hexit⟩ :=
      h
    have hin₂ := (partOf_setInsertionBlock (setInsertionBlock_run hset)).trans
      (inBlock_emitSafepoint hsafepoint).part
    have hclosing : f.Closing e₂.builder e₃.builder
        (Dispatches f host p l a e₂.builder dispatch [(first, 7), (scalar, 0)]) :=
      closing_emitUnrollChoice howned harrives (fun hpart => by
        obtain ⟨kFirst, hcheck⟩ := hplaced (hin₂.trans hpart) check (by simp)
        exact ⟨kFirst, hcheck.mono hin₂⟩) hchoice
    have hdispatch := fragment_of_dispatch howned hquiet hset hsafepoint hclosing fun _ h => h
    have hin₃ := hdispatch.part
    have hbound₃ := hbound.trans hin₃.nodes.length_le
    have hiterations := fragment_emitIterations howned haccepted harrives hreserves hplan hbefore
      hcomparison hinside host hbound₃ (fun hpart next hmem => by
        obtain ⟨nFirst, hnext⟩ := hplaced (hin₃.trans hpart) next
          (List.mem_append_right _ (List.mem_cons_of_mem _ hmem))
        exact ⟨nFirst, hnext.mono hin₃⟩) hcopies
    have hiteration := fragment_emitIteration howned haccepted harrives hreserves hplan hbefore host
      hcomparison hinside (fun _ => rfl) (hbound₃.trans hiterations.part.nodes.length_le) hscalar
    refine ⟨[(first, 7), (scalar, 0)], e₃, e₅, by simp, hdispatch,
      (hiterations.and hiteration).imp fun _ hcounts => ?_, hexit⟩
    rw [hseven] at hcounts
    simp only [List.forall_mem_cons, List.not_mem_nil, false_implies, implies_true, and_true]
    exact ⟨hcounts.1, hcounts.2.of_part hiterations.part⟩
  · simp only [emitGuardedBlocks, bind_run_eq_ok] at h
    obtain ⟨⟨⟩, e₁, hset, ⟨⟩, e₂, hsafepoint, arguments, e₃, harguments, ⟨⟩, e₄, hjump, ⟨⟩, e₅, hnone,
      ⟨⟩, e₆, hscalar, hexit⟩ := h
    obtain ⟨-, rfl⟩ := pure_run_eq_ok.mp hnone
    have hplain : f.Closing e₂.builder e₄.builder
        (Dispatches f host p l a e₂.builder dispatch [(scalar, 0)]) :=
      closing_of_plain harrives harguments hjump
    have hdispatch := fragment_of_dispatch howned hquiet hset hsafepoint hplain fun _ h => h
    have hiteration := fragment_emitIteration howned haccepted harrives hreserves hplan hbefore host
      hcomparison hinside (fun _ => rfl) (hbound.trans hdispatch.part.nodes.length_le) hscalar
    refine ⟨[(scalar, 0)], e₄, e₆, by simp, hdispatch, hiteration.imp fun _ hcounts => ?_, hexit⟩
    simpa using hcounts

omit hreserves in
/-- The loop is entered as the machine enters it. -/
lemma closing_emitEntry (host : Host) {entries : List Block} {step : Symbolic} {extra : List Value}
    (hstep : ∀ value, step = .constant value → a.step = value)
    (hlength : entries.length = if step.constant? = none then 3 else 0)
    (hblocks : e.builder.function.PartOf f → ∀ block ∈ entries, ∃ first,
      f.Created e.builder block first 0)
    (h : emitEntry l entries step dispatch exit (l.initialArguments ++ extra) e = .ok () e') :
    f.Closing e.builder e'.builder (EntersFrom f host p l a e.builder dispatch exit extra) := by
  rcases entries_of_step hlength with ⟨positive, nonpositive, negative, rfl⟩ | ⟨rfl, value, rfl⟩
  · exact closing_emitSignedEntry haccepted harrives host howned hblocks h
  · exact closing_emitKnownEntry haccepted harrives host (by rw [hstep value rfl]) h

/-- A loop with a condition in its body. -/
lemma closing_emitGuardedLoop {helper : Word} {optimized : Bool} {step : Symbolic}
    (hstep : ∀ value, step = .constant value → a.step = value)
    (hbound : a.bound ≤ e.builder.function.nodes.length)
    (hinsertion : e.builder.function.validBlock e.builder.insertionBlock)
    (hquiet : ∀ n, host.exitPollRequested n = false)
    (hhelper : ∀ arguments, host.helper helper arguments = luaIntegerForRemaining arguments)
    (h : emitGuardedLoop p l helper optimized step plan e = .ok () e') :
    f.Closing e.builder e'.builder (RunsLoop f host p l a e.builder) := by
  simp only [emitGuardedLoop, bind_run_eq_ok, check_eq_ok] at h
  obtain ⟨dispatch, e₁, hdispatch, checks, e₂, hchecks, unrolled, e₃, hunrolled, scalar, e₄, hscalar,
    exit, e₅, hexit, entries, e₆, hentries, ⟨⟩, _, ⟨hvalid, rfl⟩, remaining, e₇, hremaining, h⟩ := h
  obtain ⟨hin₁, hbound₁, hdispatch⟩ := createBlock_placed howned hbound hdispatch
  obtain ⟨hin₂, hbound₂, hchecked, hchecks⟩ := createBlocks_placed howned hbound₁ hchecks
  obtain ⟨hin₃, hbound₃, hcopied, hunrolled⟩ := createBlocks_placed howned hbound₂ hunrolled
  obtain ⟨hin₄, hbound₄, hscalar⟩ := createBlock_placed howned hbound₃ hscalar
  obtain ⟨hin₅, hbound₅, hexit⟩ := createBlock_placed howned hbound₄ hexit
  obtain ⟨hin₆, hbound₆, hlength, hentries⟩ := createBlocks_placed howned hbound₅ hentries
  obtain ⟨e₈, hentry, hblocks⟩ : ∃ e₈,
      emitEntry l entries step dispatch exit (l.initialArguments ++ [remaining]) e₇ = .ok () e₈ ∧
      emitGuardedBlocks p l plan dispatch scalar exit checks unrolled e₈ = .ok () e' := by
    rcases entries_of_step hlength with ⟨positive, nonpositive, negative, rfl⟩ | ⟨rfl, value, rfl⟩
    all_goals
      obtain ⟨⟨⟩, e₈, hentry, hblocks⟩ := bind_run_eq_ok.mp h
      exact ⟨e₈, hentry, hblocks⟩
  have hlengths : checks.length = 1 ∧ unrolled.length = 8 ∨ checks = [] ∧ unrolled = [] := by
    rw [← List.length_eq_zero_iff, ← List.length_eq_zero_iff, hchecked, hcopied]
    cases optimized
    · exact .inr ⟨rfl, rfl⟩
    · exact .inl ⟨rfl, rfl⟩
  have hin₇ := inBlock_emitRemaining hremaining
  have hlast₅ := hin₆.inBlock.part.trans hin₇.part
  have hlast₄ := hin₅.inBlock.part.trans hlast₅
  have hlast₃ := hin₄.inBlock.part.trans hlast₄
  have hlast₂ := hin₃.inBlock.part.trans hlast₃
  have hlast₁ := hin₂.inBlock.part.trans hlast₂
  have hin := ((((hin₁.trans hin₂).trans hin₃).trans hin₄).trans hin₅).trans hin₆
  have hempty : e₇.builder.function.PartOf f → ∀ block ∈ entries, ∃ first,
      f.Created e₇.builder block first 0 := by
    intro hpart block hmem
    obtain ⟨first, hplaced⟩ := hentries block hmem (hvalid _ (by simp [hmem])) _ hin₇.part hpart
    exact ⟨first, hplaced.created⟩
  have hentered := closing_emitEntry howned haccepted harrives host hstep hlength hempty hentry
  have hplaced : ∀ b : ControlFlowBuilder, e₇.builder.function.PartOf b.function →
      b.function.PartOf f → ∀ block ∈ scalar :: checks ++ unrolled, ∃ first,
        Placed f a b block first (l.carried.length + 1) := by
    intro b hb hpart block hmem
    rcases List.mem_append.mp hmem with hmem | hmem
    · rcases List.mem_cons.mp hmem with rfl | hmem
      · exact hscalar (hvalid _ (by simp)) b (hlast₄.trans hb) hpart
      · exact hchecks block hmem (hvalid _ (by simp [hmem])) b (hlast₂.trans hb) hpart
    · exact hunrolled block hmem (hvalid _ (by simp [hmem])) b (hlast₃.trans hb) hpart
  have hbound₈ := hbound₆.trans (hin₇.part.trans hentered.part).nodes.length_le
  obtain ⟨targets, e₉, e₁₀, htargets, hdispatches, hcounts, hexits⟩ := emitGuardedBlocks_run howned
    haccepted harrives hreserves hquiet hbound₈ (hlengths) (hplaced _ hentered.part) hblocks
  refine (ControlFlowFunction.Closing.of_inBlock hin.inBlock (yields_counted_loop harrives hhelper
    hremaining hbound₆ (fun hpart => ?_) hentered hdispatches hcounts
    (fragment_emitExit howned harrives hreserves haccepted.latch.1 hexits))).imp
    fun _ hruns s m registers hat hkeeps =>
      hin.yields hinsertion (hruns s m registers hat hkeeps)
  exact ⟨hdispatch (hvalid _ (by simp)) _ hlast₁ hpart, hexit (hvalid _ (by simp)) _ hlast₅ hpart,
    fun target hmem => hplaced _ (.refl _) hpart target.1 (htargets target hmem)⟩

end loop

end UniJit.Lua
