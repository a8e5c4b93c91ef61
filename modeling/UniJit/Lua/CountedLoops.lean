import UniJit.Lua.LoopEntries

/-!
# Loops that count

Some loops count the iterations that are left, as the machine does: a helper computes the number
before the loop (`luaIntegerForRemaining`), and each block has it as its last parameter
(`Counted`). A group of eight iterations is entered if at least seven are left besides the first of
them (`closing_emitUnrollChoice`), so only the end of the group looks at the number
(`fragment_emitCountedCopies`). The number falls from one visit of the dispatching block to the
next, and by induction on it a run of the loop ends as the machine does
(`closing_emitParameterStepLoop`).
-/

namespace UniJit.Lua

open UniJit.Ir UniJit.Lib UniJit.Runtime LawfulScalarBuilder ControlFlowBuilder

/-! ## The number of iterations -/

/-- `lua_integer_for_remaining`. -/
def luaIntegerForRemaining : List Word → Word
  | [start, limit, step] =>
      if 0 < step.toInt then
        if limit.toInt < start.toInt then 0 else (limit - start).udiv step
      else if step.toInt < 0 then
        if start.toInt < limit.toInt then 0 else (start - limit).udiv (0 - step)
      else 0
  | _ => 0

/-- The helper counts as the machine does, if the loop is entered. -/
lemma luaIntegerForRemaining_eq {start limit step : Word} (hstep : step ≠ 0)
    (hskips : forSkips start limit step = false) :
    luaIntegerForRemaining [start, limit, step] = forCount start limit step := by
  have hne : step.toInt ≠ 0 := fun h => hstep (BitVec.eq_of_toInt_eq h)
  rcases lt_or_gt_of_ne hne with hneg | hpos
  · have hnot : ¬0 < step.toInt := by omega
    have hle := (forSkips_of_nonpos hnot).mp hskips
    rw [luaIntegerForRemaining, if_neg hnot, if_pos hneg, if_neg (by omega),
      LoopHotnessPlan.forCount_eq hneg]
  · have hle := (forSkips_of_pos hpos).mp hskips
    rw [luaIntegerForRemaining, if_pos hpos, if_neg (by omega), forCount, if_pos hpos]

section counted

variable {f : ControlFlowFunction} {host : Host} {p : Proto} {l : LoopSite} {a : Arrival}
  {e e' : Emitter ControlFlowBuilder} {s : Values} {m : Machine} {registers : Registers}
  {guarded : Option GuardedBodyPlan}

/-- A block has the number of iterations that are left as its last parameter, and there are at least
`k`. -/
def Counted (l : LoopSite) (first k : Nat) (c _index : Word) (s : Values) : Prop :=
  s.word (.ofIndex (first + l.carried.length)) = c ∧ k ≤ c.toNat

/-- The state passed on to a block holds the count it was given. -/
lemma counted_of_passedOn {first k : Nat} {v : Value} {s' : Values} {c index : Word}
    (h : PassedOn l first [v] s s') (hv : s.word v = c) (hk : k ≤ c.toNat) :
    Counted l first k c index s' := by
  have hword := h 0 (by simp)
  exact ⟨hword.trans hv, hk⟩

/-- What emitting the helper call that counts has built. -/
lemma emitRemaining_run {helper : Word} {message : String} {remaining : Value}
    (h : emitRemaining l helper message e = .ok remaining e') :
    e.builder.call helper [l.start, l.limit, l.step] = (remaining, e'.builder) ∧
      remaining.valid := by
  simp only [emitRemaining, bind_run_eq_ok, check_eq_ok, pure_run_eq_ok] at h
  obtain ⟨v, e₁, hcall, -, _, ⟨hvalid, rfl⟩, rfl, rfl⟩ := h
  cases hcall
  exact ⟨rfl, hvalid⟩

/-- Emitting the count stays in the block. -/
lemma inBlock_emitRemaining {helper : Word} {message : String} {remaining : Value}
    (h : emitRemaining l helper message e = .ok remaining e') : InBlock e.builder e'.builder := by
  have hbuilder : e'.builder = (e.builder.call helper [l.start, l.limit, l.step]).2 := by
    rw [(emitRemaining_run h).1]
  rw [hbuilder]
  exact inBlock_call

/-- The call of the helper. -/
lemma yields_emitRemaining {helper : Word} {message : String} {remaining : Value}
    (h : emitRemaining l helper message e = .ok remaining e') (hpart : e'.builder.function.PartOf f)
    (hhelper : ∀ arguments, host.helper helper arguments = luaIntegerForRemaining arguments)
    (harrives : Arrives f l a) (hkeeps : Keeps a.bound a.values s)
    (hstep : a.step ≠ 0) {post : Post}
    (hnext : ∀ s' m', Keeps e.builder.function.nodes.length s s' →
      remaining.index < e'.builder.function.nodes.length →
      (forSkips a.start a.limit a.step = false →
        s'.word remaining = forCount a.start a.limit a.step) → f.Yields host e'.builder s' m' post) :
    f.Yields host e.builder s m post := by
  obtain ⟨hcall, hvalid⟩ := emitRemaining_run h
  refine .call hcall hvalid hpart fun m' => ?_
  have happend := hcall
  rw [ControlFlowBuilder.call] at happend
  split_ifs at happend with hroom
  · obtain rfl : Value.invalid = remaining := congrArg Prod.fst happend
    exact absurd hvalid not_valid_invalid
  obtain ⟨haccepts, hv, hbuilder⟩ := ControlFlowFunction.appendNode_eq_of_valid happend hvalid
  have hindex : remaining.index = e.builder.function.nodes.length := by
    rw [hv, Value.index_ofIndex haccepts.2.2]
  have hlt : remaining.index < e'.builder.function.nodes.length := by
    rw [hindex, hbuilder, ControlFlowBuilder.appendNode_of_accepts haccepts]
    simp
  refine hnext _ m' (Keeps.setWord ..) hlt fun hskips => ?_
  have hle := hpart.nodes.length_le
  have hlength := hkeeps.length.trans harrives.length
  have hstart := harrives.start
  have hlimit := harrives.limit
  have hstep' := harrives.step
  rw [Values.word_setWord_self hindex (by omega), hhelper, ← luaIntegerForRemaining_eq hstep hskips]
  simp only [List.map_cons, List.map_nil, hkeeps.word _ hstart.1, hkeeps.word _ hlimit.1,
    hkeeps.word _ hstep'.1, hstart.2, hlimit.2, hstep'.2]

/-! ## The end of an iteration -/

section latch

variable {values completed : List Value} {nextIndex nextRemaining remaining v : Value} {taken : Word}
  {message : String} {e₁ e₂ e₃ e₄ : Emitter ControlFlowBuilder} {again : Block}
  {aFirst k n : Nat} {c index : Word}
  (hadd : emitBinary .add (values.getD (l.stateBase + 2) .invalid) l.step e = .ok nextIndex e₁)
  (htaken : emitConstant taken e₁ = .ok v e₂)
  (hsubtract : emitBinary .subtract remaining v e₂ = .ok nextRemaining e₃)
  (hcompleted : l.completedRegisters values message e₃ = .ok completed e₄)

include hadd htaken hsubtract in
lemma grows_latch : Code.Grows e.builder e₃.builder :=
  ((grows_emitBinary hadd).trans (grows_emitConstant htaken)).trans (grows_emitBinary hsubtract)

variable (haccepted : AcceptedLoop p l guarded) (harrives : Arrives f l a)
  (hs : Inside l a values registers e.builder.function.nodes.length s)
  (hlooping : l.Looping registers c a.step index)
  (hindex : (values.getD (l.stateBase + 2) .invalid).valid)
  (hremaining : remaining.index < e.builder.function.nodes.length ∧
    (c ≠ 0 → s.word remaining - taken = c - 1))
  (hagain : Placed f a e.builder again aFirst (l.carried.length + 1))
  (hbegins : BeginsAt f host p l a again aFirst (Counted l aFirst k) n)
  (hk : c ≠ 0 → k ≤ (c - 1).toNat) (hn : c.toNat < n + 1)

include hadd htaken hsubtract harrives hs hlooping hindex hremaining in
/-- The next index and the next number. -/
lemma obtains_next (hvalid : nextRemaining.valid) (hpart : e₃.builder.function.PartOf f)
    (m : Machine) : ∃ s', (f.code host).Leads e.builder s m e₃.builder s' m ∧
      Keeps e.builder.function.nodes.length s s' ∧ s'.word nextIndex = index + a.step ∧
      (c ≠ 0 → s'.word nextRemaining = c - 1) := by
  have hpart₂ := (inBlock_of_grows (grows_emitBinary hsubtract)).part.trans hpart
  have hpart₁ := (inBlock_of_grows (grows_emitConstant htaken)).part.trans hpart₂
  have haccepts₂ := accepts_of_emitBinary hsubtract hvalid
  have haccepts₁ := (grows_emitConstant htaken).accepts haccepts₂
  have haccepts := (grows_emitBinary hadd).accepts haccepts₁
  have hlength := hs.length harrives
  have hle₁ := (grows_emitBinary hadd).size_le
  have hle₂ := (grows_emitConstant htaken).size_le
  obtain ⟨hlt, hword⟩ := hs.holds.word_index hlooping hindex
  obtain ⟨hstep, hstepWord⟩ := harrives.step
  obtain ⟨s₁, h₁⟩ := obtains_emitBinary (f.code host) hadd haccepts hpart₁ hlength hlt
    ⟨harrives.valid.2.2, hstep.trans_le hs.le⟩ m
  have hlength₁ := h₁.keeps.length.trans hlength
  obtain ⟨s₂, h₂⟩ := obtains_emitConstant (f.code host) htaken haccepts₁ hpart₂ hlength₁ m
  have hlength₂ := h₂.keeps.length.trans hlength₁
  have hkeeps₂ := h₁.keeps.trans h₂.keeps hle₁
  obtain ⟨s₃, h₃⟩ := obtains_emitBinary (f.code host) hsubtract haccepts₂ hpart hlength₂
    (hremaining.1.trans_le (hle₁.trans hle₂)) ⟨h₂.valid, h₂.index_lt⟩ m
  refine ⟨s₃, (h₁.leads.trans h₂.leads).trans h₃.leads, hkeeps₂.trans h₃.keeps (hle₁.trans hle₂),
    ?_, fun hne => ?_⟩
  · rw [h₃.keeps.word _ (h₁.index_lt.trans_le hle₂), h₂.keeps.word _ h₁.index_lt, h₁.word, hword,
      hs.keeps.word _ hstep, hstepWord]
    rfl
  · rw [h₃.word, h₂.word, hkeeps₂.word _ hremaining.1]
    exact hremaining.2 hne

include hadd htaken hsubtract hcompleted haccepted harrives hs hlooping hindex hremaining hagain
  hbegins hk hn

/-- An iteration that counts ends as the machine does. -/
lemma yields_counted {condition : Value} {exit : Block} {xFirst : Nat}
    (hbranch : emitBranch condition again (l.withIndex completed nextIndex ++ [nextRemaining]) exit
      completed e₄ = .ok () e') (hpart : e'.builder.function.PartOf f)
    (hcondition : condition.index < e.builder.function.nodes.length ∧ s.word condition = c)
    (hexit : Placed f a e.builder exit xFirst l.carried.length)
    (hexitRuns : ExitRuns f host p l a exit xFirst) :
    f.Yields host e.builder s m (Agrees p ⟨l.loopPc, registers⟩) := by
  obtain ⟨rfl, rfl, hvalid⟩ := completedRegisters_run hcompleted
  have hgrows := grows_latch hadd htaken hsubtract
  have hpart₃ := (partOf_emitBranch hbranch).trans hpart
  have hin := (inBlock_of_grows hgrows).part
  obtain ⟨s', hleads, hkeeps, hnextIndex, hnextRemaining⟩ := obtains_next hadd htaken hsubtract
    harrives hs hlooping hindex hremaining ((valid_of_emitBranch hbranch).2 _ (by simp)) hpart₃ m
  have hs' := hs.mono hkeeps hgrows.size_le
  refine hleads _ (yields_latch haccepted harrives hpart (hagain.mono hin) (List.length_map _)
    (supplies_completed hs'.holds hvalid) hs'.keeps hlooping hnextIndex (hexit.mono hin) hbranch ?_
    (fun hne s'' henters hpassed => ?_) hexitRuns)
  · rw [hkeeps.word _ hcondition.1, hcondition.2]
  · have hpred := toNat_pred hne
    exact hbegins s'' m _ _ _ henters (hlooping.advance _ _)
      (counted_of_passedOn hpassed (hnextRemaining hne) (hk hne)) (by omega)

/-- An iteration that is certain to be followed by another one. -/
lemma yields_counted_next
    (hjump : emitJump again (l.withIndex completed nextIndex ++ [nextRemaining]) e₄ = .ok () e')
    (hpart : e'.builder.function.PartOf f) (hne : c ≠ 0) :
    f.Yields host e.builder s m (Agrees p ⟨l.loopPc, registers⟩) := by
  obtain ⟨rfl, rfl, hvalid⟩ := completedRegisters_run hcompleted
  have hgrows := grows_latch hadd htaken hsubtract
  have hpart₃ := (partOf_emitJump hjump).trans hpart
  have hin := (inBlock_of_grows hgrows).part
  obtain ⟨s', hleads, hkeeps, hnextIndex, hnextRemaining⟩ := obtains_next hadd htaken hsubtract
    harrives hs hlooping hindex hremaining (valid_of_emitJump hjump _ (by simp)) hpart₃ m
  have hs' := hs.mono hkeeps hgrows.size_le
  refine hleads _ (yields_next haccepted harrives hpart (hagain.mono hin) (List.length_map _)
    (supplies_completed hs'.holds hvalid) hs'.keeps hlooping hnextIndex hne hjump
    fun s'' henters hpassed => ?_)
  have hpred := toNat_pred hne
  exact hbegins s'' m _ _ _ henters (hlooping.advance _ _)
    (counted_of_passedOn hpassed (hnextRemaining hne) (hk hne)) (by omega)

end latch

/-! ## Groups of iterations -/

/-- From one block, a run goes through an iteration, or a group of them, to another block or out of
the loop. -/
def CountsDown (f : ControlFlowFunction) (host : Host) (p : Proto) (l : LoopSite) (a : Arrival)
    (b : ControlFlowBuilder) (block : Block) (least : Nat) (again : Block) (k : Nat) (exit : Block) :
    Prop :=
  ∀ first aFirst xFirst n, Placed f a b block first (l.carried.length + 1) →
    Placed f a b again aFirst (l.carried.length + 1) → Placed f a b exit xFirst l.carried.length →
    ExitRuns f host p l a exit xFirst → BeginsAt f host p l a again aFirst (Counted l aFirst k) n →
    BeginsAt f host p l a block first (Counted l first least) (n + 1)

/-- Looking at the builder changes nothing. -/
lemma inspect_run {α : Type} {look : ControlFlowBuilder → α} {x : α}
    (h : (inspect look : EmitGraph α) e = .ok x e') : x = look e.builder ∧ e = e' := by
  cases h
  exact ⟨rfl, rfl⟩

/-- The last parameter of a block that counts. -/
lemma Placed.remaining {block : Block} {first : Nat} {b : ControlFlowBuilder}
    (h : Placed f a b block first (l.carried.length + 1)) (hpart : b.function.PartOf f) :
    b.blockParameter block l.carried.length = .ofIndex (first + l.carried.length) ∧
      (Value.ofIndex (first + l.carried.length)).valid ∧
      (Value.ofIndex (first + l.carried.length)).index < b.function.nodes.length := by
  have hle := h.created.le
  have hbound := h.created.parameters.bound
  refine ⟨h.created.blockParameter hpart (Nat.lt_succ_self _), Value.valid_ofIndex (by omega), ?_⟩
  rw [Value.index_ofIndex (by omega)]
  omega

/-- Behind the carried registers a filled block receives the count. -/
lemma Filled.remaining {block : Block} {first : Nat} {values : List Value} {b b' : ControlFlowBuilder}
    (h : Filled f host p l a block first (l.carried.length + 1) values b)
    (hin : b.function.PartOf b'.function) (hpart : b'.function.PartOf f) :
    b'.blockParameter block l.carried.length = .ofIndex (first + l.carried.length) ∧
      (Value.ofIndex (first + l.carried.length)).index < b.function.nodes.length :=
  ⟨((h.placed.mono hin).remaining hpart).1, (h.placed.remaining (hin.trans hpart)).2.2⟩

/-- A count that is large enough is counted down without wrapping. -/
lemma toNat_sub_ofNat {c : Word} {n : Nat} (h : n ≤ c.toNat) :
    (c - BitVec.ofNat 64 n).toNat = c.toNat - n := by
  have hlt := c.isLt
  have hmod : (BitVec.ofNat 64 n).toNat = n := by
    rw [BitVec.toNat_ofNat]
    omega
  rw [BitVec.toNat_sub_of_le (by rw [BitVec.le_def, hmod]; exact h), hmod]

section groups

variable {block dispatch exit : Block} {lostText undefinedText : String} (howned : f.Owned)
  (haccepted : AcceptedLoop p l guarded) (harrives : Arrives f l a)
  (hreserves : p.Reserves l.preparationPc l.loopPc l.stateBase)
include howned haccepted harrives hreserves

variable (host) in
/-- A single copy of the body. -/
lemma fragment_emitCountedTail
    (h : emitCountedTail p l block dispatch exit lostText undefinedText e = .ok () e') :
    f.Fragment e.builder e'.builder
      (CountsDown f host p l a e.builder block 0 dispatch 0 exit) := by
  simp only [emitCountedTail, bind_run_eq_ok, check_eq_ok] at h
  obtain ⟨⟨⟩, e₁, hset, values, e₂, hregisters, ⟨values', returned⟩, e₃, htranslate, -, _,
    ⟨hindex, rfl⟩, remaining, e₄, hinspect, nextIndex, e₅, hadd, one, e₆, htaken, nextRemaining,
    e₇, hsubtract, completed, e₈, hcompleted, hbranch⟩ := h
  obtain ⟨-, rfl⟩ := inspect_run hregisters
  obtain ⟨hremaining, rfl⟩ := inspect_run hinspect
  obtain ⟨-, rfl, -⟩ := completedRegisters_run hcompleted
  have hloop := haccepted.latch.1
  have hinside : l.preparationPc + 1 ≤ l.loopPc := by
    have heq := haccepted.loop
    omega
  obtain ⟨-, hpasses⟩ := passesPart_of_translate f host a harrives hreserves hloop le_rfl hinside
    le_rfl htranslate
  have hlatch := grows_latch hadd htaken hsubtract
  refine (fragment_of_block howned host a hset hregisters (.of_inBlock
    (inBlock_of_grows (hpasses.grows.trans hlatch)) (closing_emitBranch hbranch))).imp
    fun hpart hfilled first dFirst xFirst n hblock hdispatch hexit hexitRuns hbegins s m registers c
      index henters hlooping hcounted hlt => ?_
  have hstart := hfilled.2 first _ hblock (Nat.le_succ _)
  have hin₃ := (inBlock_of_grows hpasses.grows).part
  have hin := (partOf_setInsertionBlock (setInsertionBlock_run hset)).trans hin₃
  have hpart₃ := (inBlock_of_grows hlatch).part.trans ((partOf_emitBranch hbranch).trans hpart)
  refine hstart.start s m registers _ henters fun hs => ?_
  refine hpasses.runs hpart₃ s m registers hs fun s₃ registers₃ hs₃ hkept hkeeps => ?_
  obtain ⟨hparameter, hlt'⟩ := hstart.remaining hin₃ hpart₃
  rw [hparameter] at hremaining
  subst hremaining
  have hword := (hkeeps.word _ hlt').trans hcounted.1
  have hindex' := hlt'.trans_le hin₃.nodes.length_le
  refine yields_counted hadd htaken hsubtract hcompleted haccepted harrives hs₃
    (hlooping.of_kept hkept) hindex ⟨hindex', fun _ => by rw [hword]⟩ (hdispatch.mono hin) hbegins
    (fun _ => Nat.zero_le _) hlt hbranch hpart ⟨hindex', hword⟩ (hexit.mono hin) hexitRuns

variable (host) in
/-- A group of copies of the body, after which the number is looked at. -/
lemma fragment_emitCountedCopies {copies : Nat} (hmem : l.stateBase + 2 ∈ l.carried)
    (h : emitCountedCopies p l (copies + 1) block dispatch exit lostText undefinedText e =
      .ok () e') :
    f.Fragment e.builder e'.builder
      (CountsDown f host p l a e.builder block copies dispatch 0 exit) := by
  simp only [emitCountedCopies, bind_run_eq_ok, check_eq_ok, Nat.add_sub_cancel] at h
  obtain ⟨⟨⟩, e₁, hset, values, e₂, hregisters, values', e₃, hcopies, -, _, ⟨hindex, rfl⟩, remaining,
    e₄, hinspect, rest, e₅, hrest, continues, e₆, hcontinues, nextIndex, e₇, hadd, taken, e₈,
    htaken, nextRemaining, e₉, hsubtract, completed, e₁₀, hcompleted, hbranch⟩ := h
  obtain ⟨-, rfl⟩ := inspect_run hregisters
  obtain ⟨hremaining, rfl⟩ := inspect_run hinspect
  obtain ⟨-, rfl, -⟩ := completedRegisters_run hcompleted
  have hbody := copiesBody_of_emitCopies haccepted harrives hreserves host hcopies
  have hlatch := grows_latch hadd htaken hsubtract
  have hchoice := (grows_emitConstant hrest).trans (grows_emitBinary hcontinues)
  refine (fragment_of_block howned host a hset hregisters (.of_inBlock
    (inBlock_of_grows ((hbody.grows.trans hchoice).trans hlatch)) (closing_emitBranch hbranch))).imp
    fun hpart hfilled first dFirst xFirst n hblock hdispatch hexit hexitRuns hbegins s m registers c
      index henters hlooping hcounted hlt => ?_
  have hstart := hfilled.2 first _ hblock (Nat.le_succ _)
  have hin₃ := (inBlock_of_grows hbody.grows).part
  have hin₅ := (inBlock_of_grows (grows_emitConstant hrest)).part
  have hin₆ := (inBlock_of_grows (grows_emitBinary hcontinues)).part
  have hin := ((partOf_setInsertionBlock (setInsertionBlock_run hset)).trans hin₃).trans
    (hin₅.trans hin₆)
  have hpart₉ := (partOf_emitBranch hbranch).trans hpart
  have hpart₆ := (inBlock_of_grows hlatch).part.trans hpart₉
  have hpart₅ := hin₆.trans hpart₆
  have hpart₃ := hin₅.trans hpart₅
  refine hstart.start s m registers _ henters fun hs => ?_
  have hready : (values.getD (l.stateBase + 2) .invalid).valid := by
    rw [hstart.registers]
    have hbound := hstart.placed.created.parameters.bound
    exact registersAt_of_mem hmem haccepted.state.1 (by omega)
  refine hbody.runs hpart₃ (fun _ => hready) s m registers c index hs hlooping hcounted.2
    fun s₃ registers₃ hs₃ hlooping₃ hkeeps => ?_
  rw [Nat.add_sub_cancel] at hlooping₃
  obtain ⟨hparameter, hlt'⟩ := hstart.remaining hin₃ hpart₃
  rw [hparameter] at hremaining
  subst hremaining
  have hword := (hkeeps.word _ hlt').trans hcounted.1
  have hindex' := hlt'.trans_le hin₃.nodes.length_le
  have haccepts₉ := accepts_of_emitBinary hsubtract ((valid_of_emitBranch hbranch).2 _ (by simp))
  have haccepts₆ := ((grows_emitBinary hadd).trans (grows_emitConstant htaken)).accepts haccepts₉
  have haccepts₅ := (grows_emitBinary hcontinues).accepts haccepts₆
  have haccepts₃ := (grows_emitConstant hrest).accepts haccepts₅
  obtain ⟨s₅, h₅⟩ := obtains_emitConstant (f.code host) hrest haccepts₃ hpart₅ (hs₃.length harrives) m
  have hle₅ := (grows_emitConstant hrest).size_le
  obtain ⟨s₆, h₆⟩ := obtains_emitBinary (f.code host) hcontinues haccepts₅ hpart₆
    (h₅.keeps.length.trans (hs₃.length harrives)) (hindex'.trans_le hle₅) ⟨h₅.valid, h₅.index_lt⟩ m
  have hkeeps₆ := h₅.keeps.trans h₆.keeps hle₅
  have hcontinuesWord : s₆.word continues = c - BitVec.ofNat 64 copies := by
    rw [h₆.word, h₅.word, h₅.keeps.word _ hindex', hword]
    rfl
  have hremainingWord : s₆.word (.ofIndex (first + l.carried.length)) = c := by
    rw [hkeeps₆.word _ hindex', hword]
  have hcount := toNat_sub_ofNat hcounted.2
  refine h₅.leads _ (h₆.leads _ (yields_counted hadd htaken hsubtract hcompleted haccepted harrives
    (hs₃.mono hkeeps₆ hchoice.size_le) hlooping₃ hindex
    ⟨hindex'.trans_le hchoice.size_le, fun _ => ?_⟩ (hdispatch.mono hin) hbegins
    (fun _ => Nat.zero_le _) (by omega) hbranch hpart ⟨h₆.index_lt, hcontinuesWord⟩
    (hexit.mono hin) hexitRuns))
  rw [hremainingWord, ← sub_one_sub_ofNat]
  bv_omega

end groups

/-! ## Dispatching -/

section dispatching

variable {block target : Block} {first tFirst k n : Nat} {c index : Word} {b : ControlFlowBuilder}
  {s' : Values}

/-- The parameters of a block stay in the code of the block. -/
lemma Placed.enters_mono {count : Nat} (h : Placed f a b block first count)
    (hcount : l.carried.length ≤ count) (henters : Enters l a first registers s)
    (hkeeps : Keeps b.function.nodes.length s s') : Enters l a first registers s' := by
  have hbound := h.created.parameters.bound
  have hle := h.created.le
  have hfirst := h.bound
  refine ⟨henters.keeps.trans hkeeps (by omega), fun index r hget hr => ?_⟩
  have hlt := (List.getElem?_eq_some_iff.mp hget).1
  rw [hkeeps.word _ (by rw [Value.index_ofIndex (by omega)]; omega)]
  exact henters.carried index r hget hr

/-- Later code does not touch the count. -/
lemma Placed.counted_mono (h : Placed f a b block first (l.carried.length + 1))
    (hcounted : Counted l first k c index s) (hkeeps : Keeps b.function.nodes.length s s') :
    Counted l first k c index s' := by
  have hbound := h.created.parameters.bound
  have hle := h.created.le
  refine ⟨?_, hcounted.2⟩
  rw [hkeeps.word _ (by rw [Value.index_ofIndex (by omega)]; omega), hcounted.1]

/-- A block passes its parameters on to another one. -/
lemma enters_of_forwarded {count : Nat} (hcount : l.carried.length ≤ count)
    (htarget : Placed f a b target tFirst count) (henters : Enters l a first registers s)
    (hpasses : ControlFlowFunction.Passes tFirst count
      ((List.range count).map fun index => .ofIndex (first + index)) s s') :
    Enters l a tFirst registers s' :=
  enters_of_passes hpasses hcount henters.keeps htarget.bound (henters.supplies hcount)

/-- A block that only forwards its count yields what its target yields. -/
lemma yieldsAt_forwarded (htarget : Placed f a b target tFirst (l.carried.length + 1))
    (hbegins : BeginsAt f host p l a target tFirst (Counted l tFirst k) n)
    (henters : Enters l a first registers s) (hlooping : l.Looping registers c a.step index)
    (hcounted : Counted l first k c index s) (hlt : c.toNat < n)
    (hpasses : ControlFlowFunction.Passes tFirst (l.carried.length + 1)
      ((List.range (l.carried.length + 1)).map fun index => .ofIndex (first + index)) s s') :
    f.YieldsAt host target s' m (Agrees p ⟨l.preparationPc + 1, registers⟩) := by
  have hword := hpasses.word l.carried.length (Nat.lt_succ_self _)
  refine hbegins s' m registers c index
    (enters_of_forwarded (Nat.le_succ _) htarget henters hpasses) hlooping ⟨?_, hcounted.2⟩ hlt
  rw [hword, List.getD, List.getElem?_map, List.getElem?_range (Nat.lt_succ_self _)]
  exact hcounted.1

/-- From a point of the dispatching block, a run goes on with an iteration. -/
def Dispatches (f : ControlFlowFunction) (host : Host) (p : Proto) (l : LoopSite) (a : Arrival)
    (b : ControlFlowBuilder) (dispatch : Block) (targets : List (Block × Nat)) : Prop :=
  ∀ first n, Placed f a b dispatch first (l.carried.length + 1) →
    (∀ target ∈ targets, ∃ tFirst, Placed f a b target.1 tFirst (l.carried.length + 1) ∧
      BeginsAt f host p l a target.1 tFirst (Counted l tFirst target.2) n) →
    ∀ s m registers c index, Enters l a first registers s → l.Looping registers c a.step index →
      Counted l first 0 c index s → c.toNat < n →
      f.Yields host b s m (Agrees p ⟨l.preparationPc + 1, registers⟩)

/-- The dispatching block begins an iteration, if the blocks that it goes on with do. -/
def DispatchRuns (f : ControlFlowFunction) (host : Host) (p : Proto) (l : LoopSite) (a : Arrival)
    (b : ControlFlowBuilder) (dispatch : Block) (targets : List (Block × Nat)) : Prop :=
  ∀ first n, Placed f a b dispatch first (l.carried.length + 1) →
    (∀ target ∈ targets, ∃ tFirst, Placed f a b target.1 tFirst (l.carried.length + 1) ∧
      BeginsAt f host p l a target.1 tFirst (Counted l tFirst target.2) n) →
    BeginsAt f host p l a dispatch first (Counted l first 0) n

/-- Eight iterations are run at once if at least seven are left besides the first of them. -/
lemma closing_emitUnrollChoice (howned : f.Owned) (harrives : Arrives f l a)
    {dispatch check unrolled scalar : Block}
    (hcheck : e.builder.function.PartOf f →
      ∃ kFirst, Placed f a e.builder check kFirst (l.carried.length + 1))
    (h : emitUnrollChoice l dispatch check unrolled scalar e = .ok () e') :
    f.Closing e.builder e'.builder
      (Dispatches f host p l a e.builder dispatch [(unrolled, 7), (scalar, 0)]) := by
  simp only [emitUnrollChoice, bind_run_eq_ok] at h
  obtain ⟨arguments, e₁, harguments, remaining, e₂, hinspect, zero, e₃, hzero, isLarge, e₄, hlarge,
    ⟨⟩, e₅, hbranch, ⟨⟩, e₆, hset, arguments', e₇, harguments', remaining', e₈, hinspect', seven, e₉,
    hseven, hasFullGroup, e₁₀, hfull, hbranch'⟩ := h
  obtain ⟨-, rfl⟩ := inspect_run harguments
  obtain ⟨hremaining, rfl⟩ := inspect_run hinspect
  obtain ⟨-, rfl⟩ := inspect_run harguments'
  obtain ⟨hremaining', rfl⟩ := inspect_run hinspect'
  have hgrows := (grows_emitConstant hzero).trans (grows_emitBinary hlarge)
  have hgrows' := (grows_emitConstant hseven).trans (grows_emitBinary hfull)
  have hfirst : f.Closing e.builder e₅.builder True :=
    .of_inBlock (inBlock_of_grows hgrows) (closing_emitBranch hbranch)
  have hsecond : f.Closing e₆.builder e'.builder True :=
    .of_inBlock (inBlock_of_grows hgrows') (closing_emitBranch hbranch')
  have hfilled := hsecond.filled host howned (setInsertionBlock_run hset)
  refine (hfirst.and hfilled).imp fun hpart hruns first n hdispatch htargets s m registers c index
    henters hlooping hcounted hlt => ?_
  obtain ⟨-, -, hruns⟩ := hruns
  obtain ⟨uFirst, hunrolled, hbeginsUnrolled⟩ := htargets (unrolled, 7) (by simp)
  obtain ⟨sFirst, hscalar, hbeginsScalar⟩ := htargets (scalar, 0) (by simp)
  have hpart₅ := hfilled.part.trans hpart
  have hpart₄ := (partOf_emitBranch hbranch).trans hpart₅
  have hpart₃ := (inBlock_of_grows (grows_emitBinary hlarge)).part.trans hpart₄
  have hpart₀ := (inBlock_of_grows (grows_emitConstant hzero)).part.trans hpart₃
  obtain ⟨kFirst, hcheck⟩ := hcheck hpart₀
  have hin₄ := (inBlock_of_grows hgrows).part
  have hin₅ := hin₄.trans (partOf_emitBranch hbranch)
  have hin₆ := hin₅.trans (partOf_setInsertionBlock (setInsertionBlock_run hset))
  have hin₁₀ := hin₆.trans (inBlock_of_grows hgrows').part
  obtain ⟨hparameter, hvalid, hindex⟩ := hdispatch.remaining hpart₀
  rw [hparameter] at hremaining
  subst hremaining
  have hpart₁₀ := (partOf_emitBranch hbranch').trans hpart
  have hpart₉ := (inBlock_of_grows (grows_emitBinary hfull)).part.trans hpart₁₀
  have hpart₆ := (inBlock_of_grows (grows_emitConstant hseven)).part.trans hpart₉
  obtain ⟨hparameter', hvalid', hindex'⟩ := (hcheck.mono hin₆).remaining hpart₆
  rw [hparameter'] at hremaining'
  subst hremaining'
  obtain ⟨harguments, -⟩ := blockArguments_run hdispatch.created hpart₀ le_rfl harguments
  obtain ⟨harguments', -⟩ := blockArguments_run (hcheck.mono hin₆).created hpart₆ le_rfl harguments'
  subst harguments harguments'
  have hlength := henters.keeps.length.trans harrives.length
  have haccepts₃ := accepts_of_emitBinary hlarge (valid_of_emitBranch hbranch).1
  have hle₃ := (grows_emitConstant hzero).size_le
  obtain ⟨s₃, h₃⟩ := obtains_emitConstant (f.code host) hzero
    ((grows_emitConstant hzero).accepts haccepts₃) hpart₃ hlength m
  obtain ⟨s₄, h₄⟩ := obtains_emitBinary (f.code host) hlarge haccepts₃ hpart₄
    (h₃.keeps.length.trans hlength) (hindex.trans_le hle₃) ⟨h₃.valid, h₃.index_lt⟩ m
  have hkeeps₄ := h₃.keeps.trans h₄.keeps hle₃
  have henters₄ := hdispatch.enters_mono (Nat.le_succ _) henters hkeeps₄
  have hcounted₄ := hdispatch.counted_mono hcounted hkeeps₄
  have hlarge : s₄.word isLarge ≠ 0 ↔ c.toInt < 0 := by
    rw [h₄.word, h₃.word, h₃.keeps.word _ hindex, hcounted.1]
    exact wordOfBool_ne_zero
  have hsign := BitVec.toInt_eq_toNat_cond c
  refine h₃.leads _ (h₄.leads _ (ControlFlowFunction.Yields.branch_to (emitBranch_run hbranch) hpart₅
    hunrolled.created.parameters hcheck.created.parameters (hkeeps₄.length.trans hlength)
    (fun hne _ s' hpasses => ?_) fun hzero' _ s' hpasses => ?_))
  · have hseven : 7 ≤ c.toNat := by
      have hneg := hlarge.mp hne
      split_ifs at hsign <;> omega
    exact yieldsAt_forwarded hunrolled hbeginsUnrolled henters₄ hlooping ⟨hcounted₄.1, hseven⟩ hlt
      hpasses
  · have hnonneg : ¬c.toInt < 0 := fun hneg => hlarge.mpr hneg hzero'
    have henters' := enters_of_forwarded (Nat.le_succ _) hcheck henters₄ hpasses
    have hcounted' : s'.word (.ofIndex (kFirst + l.carried.length)) = c := by
      rw [hpasses.word l.carried.length (Nat.lt_succ_self _), List.getD, List.getElem?_map,
        List.getElem?_range (Nat.lt_succ_self _)]
      exact hcounted₄.1
    refine hruns s' m _ ?_
    have hlength' := henters'.keeps.length.trans harrives.length
    have haccepts₉ := accepts_of_emitBinary hfull (valid_of_emitBranch hbranch').1
    have hle₉ := (grows_emitConstant hseven).size_le
    obtain ⟨s₉, h₉⟩ := obtains_emitConstant (f.code host) hseven
      ((grows_emitConstant hseven).accepts haccepts₉) hpart₉ hlength' m
    obtain ⟨s₁₀, h₁₀⟩ := obtains_emitBinary (f.code host) hfull haccepts₉ hpart₁₀
      (h₉.keeps.length.trans hlength') h₉.index_lt ⟨hvalid', hindex'.trans_le hle₉⟩ m
    have hkeeps₁₀ := h₉.keeps.trans h₁₀.keeps hle₉
    have henters₁₀ := (hcheck.mono hin₆).enters_mono (Nat.le_succ _) henters' hkeeps₁₀
    have hword₁₀ : s₁₀.word (.ofIndex (kFirst + l.carried.length)) = c := by
      rw [hkeeps₁₀.word _ hindex', hcounted']
    have hgroup : s₁₀.word hasFullGroup ≠ 0 ↔ 7 ≤ c.toNat := by
      rw [h₁₀.word, h₉.word, h₉.keeps.word _ hindex', hcounted']
      refine wordOfBool_ne_zero.trans ?_
      have hseven : (7 : Word).toInt = 7 := rfl
      rw [hseven]
      split_ifs at hsign <;> omega
    refine h₉.leads _ (h₁₀.leads _ (ControlFlowFunction.Yields.branch_to (emitBranch_run hbranch')
      hpart hunrolled.created.parameters hscalar.created.parameters
      (hkeeps₁₀.length.trans hlength') (fun hne _ s'' hpasses' => ?_)
      fun _ _ s'' hpasses' => ?_))
    · exact yieldsAt_forwarded hunrolled hbeginsUnrolled henters₁₀ hlooping
        ⟨hword₁₀, hgroup.mp hne⟩ hlt hpasses'
    · exact yieldsAt_forwarded hscalar hbeginsScalar henters₁₀ hlooping
        ⟨hword₁₀, Nat.zero_le _⟩ hlt hpasses'

/-- Where the choice is not made, because there are no copies. -/
lemma closing_emitSingle (harrives : Arrives f l a) {dispatch unrolled scalar : Block}
    {arguments : List Value} {one : Value} {e₁ e₂ : Emitter ControlFlowBuilder}
    (harguments : blockArguments dispatch (l.carried.length + 1) e = .ok arguments e₁)
    (hone : emitConstant 1 e₁ = .ok one e₂)
    (hbranch : emitBranch one unrolled arguments scalar arguments e₂ = .ok () e') :
    f.Closing e.builder e'.builder
      (Dispatches f host p l a e.builder dispatch [(unrolled, 0), (scalar, 0)]) := by
  obtain ⟨-, rfl⟩ := inspect_run harguments
  have hgrows := grows_emitConstant hone
  refine (ControlFlowFunction.Closing.of_inBlock (inBlock_of_grows hgrows)
    (closing_emitBranch hbranch)).imp fun hpart _ first n hdispatch htargets s m registers c index
      henters hlooping hcounted hlt => ?_
  obtain ⟨uFirst, hunrolled, hbegins⟩ := htargets (unrolled, 0) (by simp)
  obtain ⟨sFirst, hscalar, -⟩ := htargets (scalar, 0) (by simp)
  have hpart₂ := (partOf_emitBranch hbranch).trans hpart
  have hpart₀ := (inBlock_of_grows hgrows).part.trans hpart₂
  obtain ⟨harguments, -⟩ := blockArguments_run hdispatch.created hpart₀ le_rfl harguments
  subst harguments
  have hlength := henters.keeps.length.trans harrives.length
  have haccepts : e.builder.accepts := by
    have hvalid := (valid_of_emitBranch hbranch).1
    cases hone
    exact Code.valid_append.mp hvalid
  obtain ⟨s', h₁⟩ := obtains_emitConstant (f.code host) hone haccepts hpart₂ hlength m
  have hne : s'.word one ≠ 0 := by
    rw [h₁.word]
    decide
  refine h₁.leads _ (ControlFlowFunction.Yields.branch_to (emitBranch_run hbranch) hpart
    hunrolled.created.parameters hscalar.created.parameters (h₁.keeps.length.trans hlength)
    (fun _ _ s'' hpasses => ?_) fun hzero => absurd hzero hne)
  exact yieldsAt_forwarded hunrolled hbegins
    (hdispatch.enters_mono (Nat.le_succ _) henters h₁.keeps) hlooping
    (hdispatch.counted_mono hcounted h₁.keeps) hlt hpasses

/-- What emitting a safepoint has built. -/
lemma emitSafepoint_run {pc : Nat} {message : String}
    (h : emitSafepoint pc message e = .ok () e') :
    ∃ v, e.builder.safepoint pc = (v, e'.builder) ∧ v.valid := by
  simp only [emitSafepoint, bind_run_eq_ok, check_eq_ok] at h
  obtain ⟨v, e₁, hbuild, hvalid, rfl⟩ := h
  cases hbuild
  exact ⟨_, rfl, hvalid⟩

/-- Emitting a safepoint stays in the block. -/
lemma inBlock_emitSafepoint {pc : Nat} {message : String}
    (h : emitSafepoint pc message e = .ok () e') : InBlock e.builder e'.builder := by
  obtain ⟨v, hrun, -⟩ := emitSafepoint_run h
  have hbuilder : e'.builder = (e.builder.safepoint pc).2 := by rw [hrun]
  rw [hbuilder]
  exact inBlock_safepoint

/-- The block at which the loop can be interrupted, and which goes on with an iteration. -/
lemma fragment_of_dispatch (howned : f.Owned) {dispatch : Block} {targets : List (Block × Nat)}
    {pc : Nat} {message : String} {e₁ e₂ : Emitter ControlFlowBuilder}
    (hquiet : ∀ n, host.exitPollRequested n = false)
    (hset : setInsertionBlock dispatch e = .ok () e₁)
    (hsafepoint : emitSafepoint pc message e₁ = .ok () e₂) {P : Prop}
    (h : f.Closing e₂.builder e'.builder P)
    (hdispatches : e'.builder.function.PartOf f → P →
      Dispatches f host p l a e₂.builder dispatch targets) :
    f.Fragment e.builder e'.builder (DispatchRuns f host p l a e.builder dispatch targets) := by
  obtain ⟨v, hrun, hvalid⟩ := emitSafepoint_run hsafepoint
  have hin₂ := inBlock_emitSafepoint hsafepoint
  refine ((h.of_inBlock hin₂).filled host howned (setInsertionBlock_run hset)).imp
    fun hpart hfilled first n hplaced htargets s m registers c index henters hlooping hcounted
      hlt => ?_
  have hin₁ := partOf_setInsertionBlock (setInsertionBlock_run hset)
  have hplaced₁ := hplaced.mono hin₁
  refine hfilled.2 s m _ (.safepoint hquiet hrun hvalid (h.part.trans hpart) fun m' => ?_)
  have hkeeps := Keeps.setWord s e₁.builder.function.nodes.length 0
  refine hdispatches hpart hfilled.1 first n (hplaced₁.mono hin₂.part) (fun target hmem => ?_) _ m'
    registers c index (hplaced₁.enters_mono (Nat.le_succ _) henters hkeeps) hlooping
    (hplaced₁.counted_mono hcounted hkeeps) hlt
  obtain ⟨tFirst, htarget, hbegins⟩ := htargets target hmem
  exact ⟨tFirst, htarget.mono (hin₁.trans hin₂.part), hbegins⟩

/-- The number falls from one visit of the dispatching block to the next. -/
lemma begins_of_dispatch {dispatch : Block} {C : Word → Word → Values → Prop} {Q : Nat → Prop}
    (hdispatch : ∀ n, Q n → BeginsAt f host p l a dispatch first C n)
    (hgroups : ∀ n, BeginsAt f host p l a dispatch first C n → Q (n + 1)) (n : Nat) :
    BeginsAt f host p l a dispatch first C n := by
  induction n with
  | zero =>
      intro s m registers c index _ _ _ hlt
      exact absurd hlt (Nat.not_lt_zero _)
  | succ n ih => exact hdispatch (n + 1) (hgroups n ih)

/-- The iterations that the dispatching block goes on with come back to it. -/
lemma begins_of_groups {dispatch exit : Block} {dFirst xFirst : Nat} {targets : List (Block × Nat)}
    (hdispatch : DispatchRuns f host p l a b dispatch targets)
    (hgroups : ∀ target ∈ targets, (∃ tFirst, Placed f a b target.1 tFirst (l.carried.length + 1)) ∧
      CountsDown f host p l a b target.1 target.2 dispatch 0 exit)
    (hplaced : Placed f a b dispatch dFirst (l.carried.length + 1))
    (hexit : Placed f a b exit xFirst l.carried.length)
    (hexitRuns : ExitRuns f host p l a exit xFirst) (n : Nat) :
    BeginsAt f host p l a dispatch dFirst (Counted l dFirst 0) n := by
  refine begins_of_dispatch (fun n => hdispatch dFirst n hplaced) (fun n hbegins target hmem => ?_) n
  obtain ⟨⟨tFirst, htarget⟩, hcounts⟩ := hgroups target hmem
  exact ⟨tFirst, htarget, hcounts tFirst dFirst xFirst n htarget hplaced hexit hexitRuns hbegins⟩

end dispatching

/-- A block that counts down in a part counts down in the whole. -/
lemma CountsDown.of_part {b b' : ControlFlowBuilder} {block again exit : Block} {least k : Nat}
    (h : CountsDown f host p l a b' block least again k exit)
    (hpart : b.function.PartOf b'.function) : CountsDown f host p l a b block least again k exit :=
  fun first aFirst xFirst n hblock hagain hexit =>
    h first aFirst xFirst n (hblock.mono hpart) (hagain.mono hpart) (hexit.mono hpart)

section loops

variable (howned : f.Owned) (hbound : a.bound ≤ e.builder.function.nodes.length)
include howned hbound

/-- A created block is placed behind what was there. -/
lemma createBlock_placed {block : Block} {count : Nat} (h : createBlock count e = .ok block e') :
    e.builder.StandsStill e'.builder ∧ a.bound ≤ e'.builder.function.nodes.length ∧
      (block.valid → ∀ b : ControlFlowBuilder, e'.builder.function.PartOf b.function →
        b.function.PartOf f → ∃ first, Placed f a b block first count) := by
  obtain ⟨hin, hblock⟩ := createBlock_spec (f := f) h
  refine ⟨hin, hbound.trans hin.inBlock.part.nodes.length_le, fun hvalid b hb hpart => ?_⟩
  obtain ⟨first, hfirst, hcreated⟩ := hblock howned hvalid (hb.trans hpart)
  exact ⟨first, hbound.trans hfirst, hcreated.mono hb⟩

/-- Created blocks are placed behind what was there. -/
lemma createBlocks_placed {blocks : List Block} {n count : Nat}
    (h : createBlocks n count e = .ok blocks e') :
    e.builder.StandsStill e'.builder ∧ a.bound ≤ e'.builder.function.nodes.length ∧ blocks.length = n ∧
      ∀ block ∈ blocks, block.valid → ∀ b : ControlFlowBuilder,
        e'.builder.function.PartOf b.function → b.function.PartOf f →
        ∃ first, Placed f a b block first count := by
  obtain ⟨hin, hlength, hblocks⟩ := createBlocks_spec (f := f) h
  refine ⟨hin, hbound.trans hin.inBlock.part.nodes.length_le, hlength, fun block hmem hvalid b hb hpart => ?_⟩
  obtain ⟨first, hfirst, hcreated⟩ := hblocks howned (hb.trans hpart) block hmem hvalid
  exact ⟨first, hbound.trans hfirst, hcreated.mono hb⟩

omit howned hbound in
/-- A loop that counts, from its parts. -/
lemma yields_counted_loop {dispatch exit : Block} {targets : List (Block × Nat)} {helper : Word}
    {remaining : Value} {message : String} {e₁ e₂ e₃ e₄ : Emitter ControlFlowBuilder}
    (harrives : Arrives f l a)
    (hhelper : ∀ arguments, host.helper helper arguments = luaIntegerForRemaining arguments)
    (hremaining : emitRemaining l helper message e = .ok remaining e₁)
    (hbound : a.bound ≤ e.builder.function.nodes.length)
    (hblocks : e₁.builder.function.PartOf f →
      (∃ first, Placed f a e₁.builder dispatch first (l.carried.length + 1)) ∧
      (∃ first, Placed f a e₁.builder exit first l.carried.length) ∧
      ∀ target ∈ targets, ∃ first, Placed f a e₁.builder target.1 first (l.carried.length + 1))
    (hentry : f.Closing e₁.builder e₂.builder
      (EntersFrom f host p l a e₁.builder dispatch exit [remaining]))
    (hdispatch : f.Fragment e₂.builder e₃.builder
      (DispatchRuns f host p l a e₂.builder dispatch targets))
    (hgroups : f.Fragment e₃.builder e₄.builder (∀ target ∈ targets,
      CountsDown f host p l a e₃.builder target.1 target.2 dispatch 0 exit))
    (hexit : f.Fragment e₄.builder e'.builder (∀ first,
      Placed f a e₄.builder exit first l.carried.length → ExitRuns f host p l a exit first)) :
    f.Closing e.builder e'.builder (RunsLoop f host p l a e.builder) := by
  have hcall := inBlock_emitRemaining hremaining
  refine ControlFlowFunction.Closing.imp (.of_inBlock hcall (((hentry.and hdispatch).and hgroups).and hexit))
    fun hpart hruns s m registers hat hkeeps => ?_
  obtain ⟨⟨⟨henters, hdispatches⟩, hcounts⟩, hexitRuns⟩ := hruns
  have hin₂ := hentry.part
  have hin₃ := hin₂.trans hdispatch.part
  have hin₄ := hin₃.trans hgroups.part
  have hpart₁ := hin₄.trans (hexit.part.trans hpart)
  obtain ⟨⟨dFirst, hdispatchPlaced⟩, ⟨xFirst, hexitPlaced⟩, htargets⟩ := hblocks hpart₁
  have hexits := hexitRuns xFirst (hexitPlaced.mono hin₄)
  have hbegins := begins_of_groups (fun first n hplaced hbegins => hdispatches first n
      (hplaced.mono hin₂) fun target hmem => by
        obtain ⟨tFirst, htarget, hbegins'⟩ := hbegins target hmem
        exact ⟨tFirst, htarget.mono hin₂, hbegins'⟩)
    (fun target hmem => ⟨htargets target hmem, (hcounts target hmem).of_part hin₃⟩)
    hdispatchPlaced hexitPlaced hexits
  refine yields_emitRemaining hremaining hpart₁ hhelper harrives hkeeps hat.step_ne
    fun s' m' hkeeps' hindex hword => ?_
  have hle := hcall.part.nodes.length_le
  refine henters dFirst _ xFirst _ s' m' registers hdispatchPlaced hexitPlaced (hbegins (2 ^ 64))
    hexits hat (hkeeps.trans hkeeps' hbound) (hbound.trans hle) fun hskips s₁ s₂ hkeeps₁ hpassed => ?_
  exact counted_of_passedOn hpassed ((hkeeps₁.word _ hindex).trans (hword hskips)) (Nat.zero_le _)

/-- A loop whose step is a parameter. -/
lemma closing_emitParameterStepLoop {helper : Word} {optimized : Bool}
    (haccepted : AcceptedLoop p l guarded) (harrives : Arrives f l a)
    (hreserves : p.Reserves l.preparationPc l.loopPc l.stateBase)
    (hmem : l.stateBase + 2 ∈ l.carried)
    (hinsertion : e.builder.function.validBlock e.builder.insertionBlock)
    (hquiet : ∀ n, host.exitPollRequested n = false)
    (hhelper : ∀ arguments, host.helper helper arguments = luaIntegerForRemaining arguments)
    (h : emitParameterStepLoop p l helper optimized e = .ok () e') :
    f.Closing e.builder e'.builder (RunsLoop f host p l a e.builder) := by
  simp only [emitParameterStepLoop, bind_run_eq_ok, check_eq_ok] at h
  obtain ⟨positive, e₁, hpositive, nonpositive, e₂, hnonpositive, negative, e₃, hnegative, dispatch,
    e₄, hdispatch, checks, e₅, hchecks, unrolled, e₆, hunrolled, scalar, e₇, hscalar, exit, e₈, hexit,
    ⟨⟩, _, ⟨hvalid, rfl⟩, remaining, e₉, hremaining, ⟨⟩, e₁₀, hentry, ⟨⟩, e₁₁, hset, ⟨⟩, e₁₂,
    hsafepoint, h⟩ := h
  obtain ⟨hin₁, hbound₁, hpositive⟩ := createBlock_placed howned hbound hpositive
  obtain ⟨hin₂, hbound₂, hnonpositive⟩ := createBlock_placed howned hbound₁ hnonpositive
  obtain ⟨hin₃, hbound₃, hnegative⟩ := createBlock_placed howned hbound₂ hnegative
  obtain ⟨hin₄, hbound₄, hdispatch⟩ := createBlock_placed howned hbound₃ hdispatch
  obtain ⟨hin₅, hbound₅, hlength, hchecks⟩ := createBlocks_placed howned hbound₄ hchecks
  obtain ⟨hin₆, hbound₆, hunrolled⟩ := createBlock_placed howned hbound₅ hunrolled
  obtain ⟨hin₇, hbound₇, hscalar⟩ := createBlock_placed howned hbound₆ hscalar
  obtain ⟨hin₈, hbound₈, hexit⟩ := createBlock_placed howned hbound₇ hexit
  have hin₉ := inBlock_emitRemaining hremaining
  have hlast₇ := hin₈.inBlock.part.trans hin₉.part
  have hlast₆ := hin₇.inBlock.part.trans hlast₇
  have hlast₅ := hin₆.inBlock.part.trans hlast₆
  have hlast₄ := hin₅.inBlock.part.trans hlast₅
  have hlast₃ := hin₄.inBlock.part.trans hlast₄
  have hlast₂ := hin₃.inBlock.part.trans hlast₃
  have hlast₁ := hin₂.inBlock.part.trans hlast₂
  have hin := ((((((hin₁.trans hin₂).trans hin₃).trans hin₄).trans hin₅).trans hin₆).trans hin₇).trans
    hin₈
  have hempty : e₉.builder.function.PartOf f → ∀ block ∈ [positive, nonpositive, negative],
      ∃ first, f.Created e₉.builder block first 0 := by
    intro hpart
    obtain ⟨first₁, hplaced₁⟩ := hpositive (hvalid _ (by simp)) _ hlast₁ hpart
    obtain ⟨first₂, hplaced₂⟩ := hnonpositive (hvalid _ (by simp)) _ hlast₂ hpart
    obtain ⟨first₃, hplaced₃⟩ := hnegative (hvalid _ (by simp)) _ hlast₃ hpart
    simp only [List.forall_mem_cons, List.not_mem_nil, false_implies, implies_true, and_true]
    exact ⟨⟨_, hplaced₁.created⟩, ⟨_, hplaced₂.created⟩, _, hplaced₃.created⟩
  have hentries := closing_emitSignedEntry haccepted harrives host howned hempty hentry
  have hin₁₂ := inBlock_emitSafepoint hsafepoint
  have hlater := hentries.part.trans ((partOf_setInsertionBlock (setInsertionBlock_run hset)).trans
    hin₁₂.part)
  obtain ⟨copies, e₁₃, e₁₄, e₁₅, hchoice, hcopies, htail, hexits⟩ : ∃ copies e₁₃ e₁₄ e₁₅,
      f.Closing e₁₂.builder e₁₃.builder
        (Dispatches f host p l a e₁₂.builder dispatch [(unrolled, copies), (scalar, 0)]) ∧
      emitCountedCopies p l (copies + 1) unrolled dispatch exit
        "numeric loop lost its induction state" "numeric loop has an undefined carried register"
        e₁₃ = .ok () e₁₄ ∧
      emitCountedTail p l scalar dispatch exit "numeric loop lost its scalar induction state"
        "numeric scalar tail has an undefined carried register" e₁₄ = .ok () e₁₅ ∧
      emitExit p l exit "Lua numeric loop has no supported return" e₁₅ = .ok () e' := by
    split at h
    case h_1 =>
      simp only [bind_run_eq_ok] at h
      obtain ⟨⟨⟩, e₁₃, hchoice, ⟨⟩, e₁₄, hcopies, ⟨⟩, e₁₅, htail, hexits⟩ := h
      have hoptimized : optimized = true := by
        by_contra hnot
        rw [if_neg hnot] at hlength
        cases hlength
      rw [if_pos hoptimized] at hcopies
      refine ⟨7, e₁₃, e₁₄, e₁₅, closing_emitUnrollChoice howned harrives (fun hpart => ?_) hchoice,
        hcopies, htail, hexits⟩
      exact hchecks _ List.mem_cons_self (hvalid _ (by simp)) _ (hlast₅.trans hlater) hpart
    case h_2 =>
      simp only [bind_run_eq_ok] at h
      obtain ⟨arguments, e₁₂', harguments, one, e₁₂'', hone, ⟨⟩, e₁₃, hbranch, ⟨⟩, e₁₄, hcopies, ⟨⟩,
        e₁₅, htail, hexits⟩ := h
      have hplain : ¬optimized = true := by
        intro hoptimized
        rw [if_pos hoptimized] at hlength
        cases hlength
      rw [if_neg hplain] at hcopies
      exact ⟨0, e₁₃, e₁₄, e₁₅, closing_emitSingle harrives harguments hone hbranch, hcopies, htail,
        hexits⟩
  have hloop := haccepted.latch.1
  have hgroups := (fragment_emitCountedCopies host howned haccepted harrives hreserves hmem hcopies).and
    (fragment_emitCountedTail host howned haccepted harrives hreserves htail)
  refine (ControlFlowFunction.Closing.of_inBlock hin.inBlock (yields_counted_loop harrives hhelper
    hremaining hbound₈ (fun hpart => ?_) hentries
    (fragment_of_dispatch howned hquiet hset hsafepoint hchoice fun _ h => h)
    (hgroups.imp fun hpart hcounts => ?_)
    (fragment_emitExit howned harrives hreserves hloop hexits))).imp
    fun _ hruns s m registers hat hkeeps =>
      hin.yields hinsertion (hruns s m registers hat hkeeps)
  · refine ⟨hdispatch (hvalid _ (by simp)) _ hlast₄ hpart, hexit (hvalid _ (by simp)) _ hin₉.part hpart,
      ?_⟩
    simp only [List.forall_mem_cons, List.not_mem_nil, false_implies, implies_true, and_true]
    exact ⟨hunrolled (hvalid _ (by simp)) _ hlast₆ hpart, hscalar (hvalid _ (by simp)) _ hlast₇ hpart⟩
  · obtain ⟨hcopies', htail'⟩ := hcounts
    have hin₁₄ := (fragment_emitCountedCopies host howned haccepted harrives hreserves hmem hcopies).part
    simp only [List.forall_mem_cons, List.not_mem_nil, false_implies, implies_true, and_true]
    exact ⟨hcopies', htail'.of_part hin₁₄⟩

end loops

end counted

end UniJit.Lua
