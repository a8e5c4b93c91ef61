import UniJit.Lua.CountedLoops

/-!
# Loops that compare their index

If the step of a loop is a constant, the translated loop does not count: it compares the index with
the limit. The number that the machine keeps is the quotient of the distance between them by the
step (`Indexed`), so that a next index within the limit means another iteration, unless it has
wrapped (`indexed_continues`). A group of eight iterations is entered if the last of its indices is
within the limit (`fragment_emitIndexChoice`).
-/

namespace UniJit.Lua

open UniJit.Ir UniJit.Lib UniJit.Runtime LawfulScalarBuilder ControlFlowBuilder

/-! ## Positions -/

/-- The position of a word in the direction of a loop. -/
def along (ascending : Bool) (x : Word) : Int := if ascending then x.toInt else -x.toInt

section along

variable {ascending : Bool} {x y z : Word}

/-- The emitted strict comparison follows the direction of the loop. -/
lemma ordered_lessThan {float : FloatUnit} :
    (if ascending = true then evaluateBinary float .lessThan x y
      else evaluateBinary float .lessThan y x) ≠ 0 ↔ along ascending x < along ascending y := by
  cases ascending
  · exact wordOfBool_ne_zero.trans neg_lt_neg_iff.symm
  · exact wordOfBool_ne_zero

/-- The emitted comparison follows the direction of the loop. -/
lemma ordered_lessEqual {float : FloatUnit} :
    (if ascending = true then evaluateBinary float .lessEqual x y
      else evaluateBinary float .lessEqual y x) ≠ 0 ↔ along ascending x ≤ along ascending y := by
  cases ascending
  · exact wordOfBool_ne_zero.trans neg_le_neg_iff.symm
  · exact wordOfBool_ne_zero

/-- The range of a word read along a direction. -/
lemma along_bounds (ascending : Bool) (x : Word) :
    -2 ^ 63 ≤ along ascending x ∧ along ascending x ≤ 2 ^ 63 := by
  have hlt : x.toInt < 2 ^ 63 := BitVec.toInt_lt
  have hle : -2 ^ 63 ≤ x.toInt := BitVec.le_toInt x
  unfold along
  split_ifs <;> omega

/-- A sum in the direction of the loop wraps backwards. -/
lemma along_add (hpos : 0 < along ascending y) :
    along ascending (x + y) = along ascending x + along ascending y ∨
      along ascending (x + y) = along ascending x + along ascending y - 2 ^ 64 := by
  have hx := x.toInt_lt
  have hx' := BitVec.le_toInt x
  have hy := y.toInt_lt
  have hy' := BitVec.le_toInt y
  unfold along at hpos ⊢
  rw [BitVec.toInt_add, Int.bmod_def]
  split_ifs at hpos ⊢ <;> omega

/-- It does not if there is a word behind it. -/
lemma along_add_of_le (hpos : 0 < along ascending y)
    (hle : along ascending x + along ascending y ≤ along ascending z) :
    along ascending (x + y) = along ascending x + along ascending y := by
  have hx := x.toInt_lt
  have hx' := BitVec.le_toInt x
  have hz := z.toInt_lt
  have hz' := BitVec.le_toInt z
  unfold along at hpos hle ⊢
  rw [BitVec.toInt_add, Int.bmod_def]
  split_ifs at hpos hle ⊢ <;> omega

end along

/-! ## Counts -/

/-- The direction of a loop. -/
def Arrival.ascending (a : Arrival) : Bool := decide (0 < a.step.toInt)

/-- The machine counts as many iterations as there are steps up to the limit, and there are at least
`k`. -/
structure Indexed (a : Arrival) (k : Nat) (c index : Word) : Prop where
  within : along a.ascending index ≤ along a.ascending a.limit
  count : (c.toNat : Int) = (along a.ascending a.limit - along a.ascending index) /
    along a.ascending a.step
  le : k ≤ c.toNat

section indexed

variable {a : Arrival} {k : Nat} {c index : Word} (hstep : a.step ≠ 0)
include hstep

/-- Along its own direction the step is positive. -/
lemma along_step : 0 < along a.ascending a.step := by
  have hne : a.step.toInt ≠ 0 := fun h => hstep (BitVec.eq_of_toInt_eq h)
  unfold along Arrival.ascending
  by_cases hpos : 0 < a.step.toInt
  · simp [hpos]
  · have hneg : a.step.toInt < 0 := by omega
    simpa [hpos] using hneg

/-- What the machine counts where it enters a loop. -/
lemma indexed_entered (hskips : forSkips a.start a.limit a.step = false) :
    Indexed a 0 (forCount a.start a.limit a.step) a.start := by
  have hcount := LoopHotnessPlan.toNat_forCount hstep hskips
  have hpos := along_step hstep
  have hwithin : along a.ascending a.start ≤ along a.ascending a.limit := by
    unfold along Arrival.ascending
    by_cases hpos : 0 < a.step.toInt
    · simpa [hpos] using (forSkips_of_pos hpos).mp hskips
    · simpa [hpos] using (forSkips_of_nonpos hpos).mp hskips
  refine ⟨hwithin, ?_, Nat.zero_le _⟩
  have hdistance : (((a.limit.toInt - a.start.toInt).natAbs : Nat) : Int) =
      along a.ascending a.limit - along a.ascending a.start := by
    unfold along at hwithin ⊢
    split_ifs at hwithin ⊢ <;> omega
  have hstride : ((a.step.toInt.natAbs : Nat) : Int) = along a.ascending a.step := by
    unfold along at hpos ⊢
    split_ifs at hpos ⊢ <;> omega
  rw [hcount, Int.natCast_ediv, hdistance, hstride]

variable (h : Indexed a k c index)
include h

/-- Another iteration follows if there is a step left. -/
lemma Indexed.ne_zero_iff : c ≠ 0 ↔
    along a.ascending index + along a.ascending a.step ≤ along a.ascending a.limit := by
  have hpos := along_step hstep
  have hcount := h.count
  have hzero : c ≠ 0 ↔ 0 < c.toNat := by
    rw [Nat.pos_iff_ne_zero, ne_eq, ne_eq, ← BitVec.toNat_inj]
    rfl
  have hone : (1 : Int) ≤ c.toNat ↔ along a.ascending a.step ≤
      along a.ascending a.limit - along a.ascending index := by
    rw [hcount, Int.le_ediv_iff_mul_le hpos, one_mul]
  rw [hzero]
  omega

/-- There are as many iterations as there are steps. -/
lemma Indexed.of_reaches {n : Nat} (hn : along a.ascending index + n * along a.ascending a.step ≤
    along a.ascending a.limit) : Indexed a n c index := by
  have hpos := along_step hstep
  have hle : (n : Int) ≤ c.toNat := by
    rw [h.count, Int.le_ediv_iff_mul_le hpos]
    omega
  exact ⟨h.within, h.count, by exact_mod_cast hle⟩

/-- A group of eight iterations fits if its last index has not wrapped and is within the limit. -/
lemma Indexed.group {factor : Nat} {delta : Word}
    (hdelta : factor = 1 ∨ factor = 8 ∧ along a.ascending delta = 7 * along a.ascending a.step)
    (hadvance : factor = 1 ∨ along a.ascending index < along a.ascending (index + delta))
    (hwithin : along a.ascending (index + delta) ≤ along a.ascending a.limit) :
    Indexed a (factor - 1) c index := by
  have hpos := along_step hstep
  rcases hdelta with rfl | ⟨rfl, hdelta⟩
  · exact ⟨h.within, h.count, Nat.zero_le _⟩
  · have hforward := hadvance.resolve_left (by omega)
    have hbounds := along_bounds a.ascending delta
    have hreaches : along a.ascending index + (7 : Nat) * along a.ascending a.step ≤
        along a.ascending a.limit := by
      have hforwards : 0 < along a.ascending delta := by omega
      rcases along_add (x := index) hforwards with hsum | hsum <;> omega
    exact h.of_reaches hstep hreaches

/-- One iteration moves the index by one step. -/
lemma Indexed.next (hc : c ≠ 0) : Indexed a (k - 1) (c - 1) (index + a.step) := by
  have hpos := along_step hstep
  have hfits := (h.ne_zero_iff hstep).mp hc
  have hpred := toNat_pred hc
  have hle := h.le
  have hnext := along_add_of_le hpos hfits
  refine ⟨by rw [hnext]; exact hfits, ?_, by omega⟩
  have hquotient : (along a.ascending a.limit - along a.ascending (index + a.step)) /
      along a.ascending a.step = (c.toNat : Int) - 1 := by
    rw [hnext, h.count, ← sub_sub, Int.sub_ediv_of_dvd _ (dvd_refl _), Int.ediv_self hpos.ne']
  rw [hquotient]
  omega

end indexed

/-- Several iterations move the index by as many steps. -/
lemma Indexed.after {a : Arrival} (hstep : a.step ≠ 0) {n : Nat} {c index : Word} {k : Nat}
    (h : Indexed a k c index) (hn : n ≤ c.toNat) :
    Indexed a (k - n) (c - BitVec.ofNat 64 n) (indexAfter index a.step n) := by
  induction n generalizing k c index with
  | zero => simpa [indexAfter] using h
  | succ n ih =>
      have hc : c ≠ 0 := by
        rintro rfl
        exact absurd hn (by simp)
      have hpred := toNat_pred hc
      have hrest := ih (h.next hstep hc) (by omega)
      rwa [sub_one_sub_ofNat, indexAfter_succ, Nat.sub_sub, Nat.add_comm 1] at hrest

/-! ## The end of an iteration -/

section indexing

variable {f : ControlFlowFunction} {host : Host} {p : Proto} {l : LoopSite} {a : Arrival}
  {e e' e₁ e₂ : Emitter ControlFlowBuilder} {s s' : Values} {m : Machine} {registers : Registers}
  {guarded : Option GuardedBodyPlan} {values values' : List Value} {block again exit : Block}
  {first tFirst k n : Nat} {c index : Word}

/-- From a point where the machine is at the end of an iteration, a run goes on as the machine does,
if it does so from the blocks of the next iteration and behind the loop. -/
def Continues (f : ControlFlowFunction) (host : Host) (p : Proto) (l : LoopSite) (a : Arrival)
    (b : ControlFlowBuilder) (values : List Value) (again exit : Block) : Prop :=
  ∀ aFirst xFirst n, Placed f a b again aFirst l.carried.length →
    Placed f a b exit xFirst l.carried.length → ExitRuns f host p l a exit xFirst →
    BeginsAt f host p l a again aFirst (fun c index _ => Indexed a 0 c index) n →
    ∀ s m registers c index, Inside l a values registers b.function.nodes.length s →
      l.Looping registers c a.step index → Indexed a 0 c index → c.toNat < n + 1 →
      f.Yields host b s m (Agrees p ⟨l.loopPc, registers⟩)

/-- The next index. -/
lemma obtains_nextIndex {nextIndex : Value} (host : Host) (harrives : Arrives f l a)
    (hs : Inside l a values registers e.builder.function.nodes.length s)
    (hlooping : l.Looping registers c a.step index)
    (hindex : (values.getD (l.stateBase + 2) .invalid).valid)
    (hadd : emitBinary .add (values.getD (l.stateBase + 2) .invalid) l.step e = .ok nextIndex e₁)
    (haccepts : e₁.builder.accepts) (hpart : e₁.builder.function.PartOf f) (m : Machine) :
    ∃ s', Obtains (f.code host) e e₁ nextIndex s m (index + a.step) s' := by
  obtain ⟨hlt, hword⟩ := hs.holds.word_index hlooping hindex
  obtain ⟨hstep, hstepWord⟩ := harrives.step
  obtain ⟨s', h'⟩ := obtains_emitBinary (f.code host) hadd ((grows_emitBinary hadd).accepts haccepts)
    hpart (hs.length harrives) hlt ⟨harrives.valid.2.2, hstep.trans_le hs.le⟩ m
  rw [hword, hs.keeps.word _ hstep, hstepWord] at h'
  exact ⟨s', h'⟩

/-- The last parameter of a block is compared with the limit. -/
lemma obtains_within {last v : Value} {word : Word} {ascending : Bool} (host : Host)
    (haccepted : AcceptedLoop p l guarded) (harrives : Arrives f l a)
    (hascending : ascending = a.ascending) (hmem : l.stateBase + 1 ∈ l.carried)
    (hplaced : Placed f a e.builder block first (l.carried.length + 1))
    (hlast : last = .ofIndex (first + l.carried.length))
    (hcompare : emitOrdered ascending .lessEqual last
      ((registersAt p l.carried first).getD (l.stateBase + 1) .invalid) e = .ok v e₁)
    (haccepts : e.builder.accepts) (hpart : e₁.builder.function.PartOf f)
    (henters : Enters l a first registers s) (hword : s.word last = word) (m : Machine) :
    ∃ s' w, Obtains (f.code host) e e₁ v s m w s' ∧
      (w ≠ 0 ↔ along a.ascending word ≤ along a.ascending a.limit) := by
  subst hlast
  obtain ⟨-, hvalid, hlastLt⟩ :=
    hplaced.remaining ((inBlock_of_grows (grows_emitOrdered hcompare)).part.trans hpart)
  have hs := hplaced.inside (Nat.le_succ _) henters p
  have hbound := hplaced.created.parameters.bound
  have hstack := haccepted.state.1
  have hlimit : ((registersAt p l.carried first).getD (l.stateBase + 1) .invalid).valid :=
    registersAt_of_mem hmem (by omega) (by omega)
  obtain ⟨hlimitLt, hlimitWord⟩ := hs.holds.word_limit hlimit
  obtain ⟨s', h'⟩ := obtains_emitOrdered (f.code host) hcompare haccepts hpart
    (hs.length harrives) ⟨hvalid, hlastLt⟩ ⟨hlimit, hlimitLt⟩ m
  refine ⟨s', _, h', ?_⟩
  rw [hword, hlimitWord, hascending]
  exact ordered_lessEqual

section continuing

variable (haccepted : AcceptedLoop p l guarded) (harrives : Arrives f l a) (hstep : a.step ≠ 0)
  {ascending : Bool} (hascending : ascending = a.ascending) {lostText undefinedText : String}
include haccepted harrives hstep hascending

/-- With a step of one, the index is compared with the limit. -/
lemma closing_of_unit (hunit : a.step = 1 ∨ a.step = -1)
    (h : emitContinue p l ascending none again exit values lostText undefinedText e = .ok () e') :
    f.Closing e.builder e'.builder (Continues f host p l a e.builder values again exit) := by
  simp only [emitContinue, bind_run_eq_ok, check_eq_ok] at h
  obtain ⟨-, _, ⟨⟨hindex, hlimit⟩, rfl⟩, nextIndex, e₁, hadd, completed, e₂, hcompleted, continues, e₃,
    hcompare, hbranch⟩ := h
  obtain ⟨rfl, rfl, hvalid⟩ := completedRegisters_run hcompleted
  have hgrows := grows_emitBinary hadd
  have hgrows' := grows_emitOrdered hcompare
  refine (ControlFlowFunction.Closing.of_inBlock (inBlock_of_grows (hgrows.trans hgrows'))
    (closing_emitBranch hbranch)).imp fun hpart _ aFirst xFirst n hagain hexit hexitRuns hbegins s m
      registers c index hs hlooping hindexed hlt => ?_
  have hpart₃ := (partOf_emitBranch hbranch).trans hpart
  have hpart₁ := (inBlock_of_grows hgrows').part.trans hpart₃
  have hin₃ := (inBlock_of_grows (hgrows.trans hgrows')).part
  have haccepts := accepts_of_emitOrdered hcompare (valid_of_emitBranch hbranch).1
  obtain ⟨hindexLt, hindexWord⟩ := hs.holds.word_index hlooping hindex
  obtain ⟨hlimitLt, hlimitWord⟩ := hs.holds.word_limit hlimit
  have hle := hgrows.size_le
  obtain ⟨s₁, h₁⟩ := obtains_nextIndex host harrives hs hlooping hindex hadd haccepts hpart₁ m
  obtain ⟨s₃, h₃⟩ := obtains_emitOrdered (f.code host) hcompare haccepts hpart₃
    (h₁.keeps.length.trans (hs.length harrives)) ⟨hindex, hindexLt.trans_le hle⟩
    ⟨hlimit, hlimitLt.trans_le hle⟩ m
  have hcondition : s₃.word continues ≠ 0 ↔ c ≠ 0 := by
    have hone : along a.ascending a.step = 1 := by
      rcases hunit with hunit | hunit <;> rw [Arrival.ascending, hunit] <;> rfl
    rw [h₃.word, h₁.keeps.word _ hindexLt, h₁.keeps.word _ hlimitLt, hindexWord, hlimitWord,
      hascending, ordered_lessThan, hindexed.ne_zero_iff hstep, hone]
    omega
  have hs₃ := (hs.mono h₁.keeps hle).mono h₃.keeps hgrows'.size_le
  rw [← List.append_nil (l.withIndex _ nextIndex)] at hbranch
  refine h₁.leads _ (h₃.leads _ (yields_latch haccepted harrives hpart
    (hagain.mono hin₃) (List.length_map _) (supplies_completed hs₃.holds hvalid) hs₃.keeps hlooping
    ((h₃.keeps.word _ h₁.index_lt).trans h₁.word) (hexit.mono hin₃) hbranch
    hcondition (fun hc s' henters _ => ?_) hexitRuns))
  have hpred := toNat_pred hc
  exact hbegins s' m _ _ _ henters (hlooping.advance _ _) (hindexed.next hstep hc) (by omega)

/-- Otherwise the next index is compared with the limit, in another block that is entered if it has
not wrapped. -/
lemma closing_of_checked (howned : f.Owned) (hmem : l.stateBase + 1 ∈ l.carried)
    (hcheck : e.builder.function.PartOf f → ∃ kFirst,
      Placed f a e.builder block kFirst (l.carried.length + 1))
    (h : emitContinue p l ascending (some block) again exit values lostText undefinedText e =
      .ok () e') :
    f.Closing e.builder e'.builder (Continues f host p l a e.builder values again exit) := by
  simp only [emitContinue, bind_run_eq_ok, check_eq_ok] at h
  obtain ⟨-, _, ⟨⟨hindex, hlimit⟩, rfl⟩, nextIndex, e₁, hadd, completed, e₂, hcompleted, isSafe, e₃,
    hsafe, ⟨⟩, e₄, hbranch, ⟨⟩, e₅, hset, arguments, e₆, harguments, values', e₇, hregisters,
    nextIndex', e₈, hinspect, continues, e₉, hcompare, hbranch'⟩ := h
  obtain ⟨rfl, rfl, hvalid⟩ := completedRegisters_run hcompleted
  obtain ⟨-, rfl⟩ := inspect_run harguments
  obtain ⟨-, rfl⟩ := inspect_run hregisters
  obtain ⟨hnextIndex, rfl⟩ := inspect_run hinspect
  have hgrows := grows_emitBinary hadd
  have hgrows' := grows_emitOrdered hsafe
  have hgrows'' := grows_emitOrdered hcompare
  have hfirst : f.Closing e.builder e₄.builder True :=
    .of_inBlock (inBlock_of_grows (hgrows.trans hgrows')) (closing_emitBranch hbranch)
  have hsecond : f.Closing e₅.builder e'.builder True :=
    .of_inBlock (inBlock_of_grows hgrows'') (closing_emitBranch hbranch')
  have hfilled := hsecond.filled host howned (setInsertionBlock_run hset)
  refine (hfirst.and hfilled).imp fun hpart hruns aFirst xFirst n hagain hexit hexitRuns hbegins s m
    registers c index hs hlooping hindexed hlt => ?_
  obtain ⟨-, -, hruns⟩ := hruns
  have hpart₉ := (partOf_emitBranch hbranch').trans hpart
  have hpart₅ := (inBlock_of_grows hgrows'').part.trans hpart₉
  have hin₅ := partOf_setInsertionBlock (setInsertionBlock_run hset)
  have hpart₄ := hin₅.trans hpart₅
  have hpart₃ := (partOf_emitBranch hbranch).trans hpart₄
  have hpart₁ := (inBlock_of_grows hgrows').part.trans hpart₃
  have hin₃ := (inBlock_of_grows (hgrows.trans hgrows')).part
  have hinto := (hin₃.trans (partOf_emitBranch hbranch)).trans hin₅
  have hin₉ := hinto.trans (inBlock_of_grows hgrows'').part
  obtain ⟨kFirst, hplaced⟩ := hcheck (hin₃.trans hpart₃)
  have haccepts := accepts_of_emitOrdered hsafe (valid_of_emitBranch hbranch).1
  have hle := hgrows.size_le
  obtain ⟨s₁, h₁⟩ := obtains_nextIndex host harrives hs hlooping hindex hadd haccepts hpart₁ m
  obtain ⟨hindexLt, hindexWord⟩ := hs.holds.word_index hlooping hindex
  have hlength₁ := h₁.keeps.length.trans (hs.length harrives)
  obtain ⟨s₃, h₃⟩ := obtains_emitOrdered (f.code host) hsafe haccepts hpart₃ hlength₁
    ⟨hindex, hindexLt.trans_le hle⟩ ⟨h₁.valid, h₁.index_lt⟩ m
  have hs₃ := (hs.mono h₁.keeps hle).mono h₃.keeps hgrows'.size_le
  have hnextWord : s₃.word nextIndex = index + a.step := (h₃.keeps.word _ h₁.index_lt).trans h₁.word
  have hsafely : s₃.word isSafe ≠ 0 ↔ along a.ascending index < along a.ascending (index + a.step) := by
    rw [h₃.word, h₁.keeps.word _ hindexLt, hindexWord, h₁.word, hascending, ordered_lessThan]
  have hpos := along_step hstep
  have hsupplies := supplies_completed hs₃.holds hvalid
  refine h₁.leads _ (h₃.leads _ (ControlFlowFunction.Yields.branch_to (emitBranch_run hbranch) hpart₄
    (hplaced.mono hin₃).created.parameters (hexit.mono hin₃).created.parameters
    (h₃.keeps.length.trans hlength₁) (fun hne hcount s' hpasses => ?_) fun hzero _ s' hpasses => ?_))
  · have hplaced₅ := hplaced.mono hinto
    have hlengths : (l.carried.map fun r => values.getD r .invalid).length = l.carried.length :=
      List.length_map _
    have henters := enters_of_passes hpasses (Nat.le_succ _) hs₃.keeps hplaced.bound
      (hsupplies.append hlengths [nextIndex])
    have hnextWord' : s'.word (.ofIndex (kFirst + l.carried.length)) = index + a.step :=
      (passedOn_of_passes hpasses hlengths hcount 0 (by simp)).trans hnextWord
    obtain ⟨hparameter, -, hnextLt⟩ := hplaced₅.remaining hpart₅
    rw [hparameter] at hnextIndex
    subst hnextIndex
    obtain ⟨rfl, -⟩ := blockArguments_run hplaced₅.created hpart₅ (Nat.le_succ _) harguments
    obtain ⟨rfl, -⟩ := blockRegisters_run hplaced₅.created hpart₅ (Nat.le_succ _) hregisters
    refine hruns s' m _ ?_
    have haccepts₅ := accepts_of_emitOrdered hcompare (valid_of_emitBranch hbranch').1
    obtain ⟨s₉, w, h₉, hwithin⟩ := obtains_within host haccepted harrives hascending hmem hplaced₅ rfl
      hcompare haccepts₅ hpart₉ henters hnextWord' m
    have hcondition : s₉.word continues ≠ 0 ↔ c ≠ 0 := by
      have hnext : along a.ascending (index + a.step) =
          along a.ascending index + along a.ascending a.step := by
        have hlow := along_bounds a.ascending (index + a.step)
        have hstepBound := along_bounds a.ascending a.step
        have hforward := hsafely.mp hne
        rcases along_add (x := index) hpos with hadd | hadd <;> omega
      rw [h₉.word, hwithin, hnext, hindexed.ne_zero_iff hstep]
    have henters₉ := hplaced₅.enters_mono (Nat.le_succ _) henters h₉.keeps
    rw [← List.append_nil (l.withIndex _ _)] at hbranch'
    refine h₉.leads _ (yields_latch haccepted harrives hpart (hagain.mono hin₉)
      (by simp) (henters₉.supplies le_rfl) henters₉.keeps hlooping
      ((h₉.keeps.word _ hnextLt).trans hnextWord') (hexit.mono hin₉) hbranch'
      hcondition (fun hc s'' henters' _ => ?_) hexitRuns)
    have hpred := toNat_pred hc
    exact hbegins s'' m _ _ _ henters' (hlooping.advance _ _) (hindexed.next hstep hc) (by omega)
  · have hc : c = 0 := by
      by_contra hne
      have hnext := along_add_of_le hpos ((hindexed.ne_zero_iff hstep).mp hne)
      exact hsafely.mpr (by omega) hzero
    have henters := enters_of_passes hpasses le_rfl hs₃.keeps hexit.bound hsupplies
    exact (hexitRuns s' m registers henters trivial).mono fun r => agrees_last haccepted hlooping hc

/-- The loop goes on if the next index is within the limit. -/
lemma closing_emitContinue (howned : f.Owned) (hmem : l.stateBase + 1 ∈ l.carried)
    {continueCheck : Option Block} (hunit : continueCheck = none → a.step = 1 ∨ a.step = -1)
    (hcheck : e.builder.function.PartOf f → ∀ block ∈ continueCheck, ∃ kFirst,
      Placed f a e.builder block kFirst (l.carried.length + 1))
    (h : emitContinue p l ascending continueCheck again exit values lostText undefinedText e =
      .ok () e') :
    f.Closing e.builder e'.builder (Continues f host p l a e.builder values again exit) := by
  rcases continueCheck with - | block
  · exact closing_of_unit haccepted harrives hstep hascending (hunit rfl) h
  · exact closing_of_checked haccepted harrives hstep hascending howned hmem
      (fun hpart => hcheck hpart block rfl) h

end continuing

/-! ## Groups of iterations -/

/-- From one block, a run goes through an iteration, or a group of them, to another block or out of
the loop. -/
def IndexesOn (f : ControlFlowFunction) (host : Host) (p : Proto) (l : LoopSite) (a : Arrival)
    (b : ControlFlowBuilder) (block : Block) (least : Nat) (again exit : Block) : Prop :=
  ∀ first aFirst xFirst n, Placed f a b block first l.carried.length →
    Placed f a b again aFirst l.carried.length → Placed f a b exit xFirst l.carried.length →
    ExitRuns f host p l a exit xFirst →
    BeginsAt f host p l a again aFirst (fun c index _ => Indexed a 0 c index) n →
    BeginsAt f host p l a block first (fun c index _ => Indexed a least c index) (n + 1)

section groups

variable (howned : f.Owned) (haccepted : AcceptedLoop p l guarded) (harrives : Arrives f l a)
  (hreserves : p.Reserves l.preparationPc l.loopPc l.stateBase) (hstep : a.step ≠ 0)
include howned haccepted harrives hreserves hstep

/-- Copies of the body, after which the next index is compared with the limit. -/
lemma fragment_of_copies (host : Host) {copies : Nat} {e₃ : Emitter ControlFlowBuilder}
    (hmem : l.stateBase + 2 ∈ l.carried) (hset : setInsertionBlock block e = .ok () e₁)
    (hregisters : blockRegisters p l.carried block e₁ = .ok values e₂)
    (hcopies : emitCopies p l (copies + 1) values e₂ = .ok values' e₃)
    (h : e.builder.function.PartOf e₃.builder.function →
      f.Closing e₃.builder e'.builder (Continues f host p l a e₃.builder values' again exit)) :
    f.Fragment e.builder e'.builder (IndexesOn f host p l a e.builder block copies again exit) := by
  have hbody := copiesBody_of_emitCopies haccepted harrives hreserves host hcopies
  have hin : e.builder.function.PartOf e₂.builder.function := by
    obtain ⟨-, rfl⟩ := inspect_run hregisters
    exact partOf_setInsertionBlock (setInsertionBlock_run hset)
  have hin₃ := hin.trans (inBlock_of_grows hbody.grows).part
  have h := h hin₃
  refine (fragment_of_block howned host a hset hregisters (.of_inBlock (inBlock_of_grows hbody.grows)
    h)).imp fun hpart hfilled first aFirst xFirst n hblock hagain hexit hexitRuns hbegins s m
      registers c index henters hlooping hindexed hlt => ?_
  obtain ⟨hcontinues, hstart⟩ := hfilled
  have hstart := hstart first _ hblock le_rfl
  refine hstart.start s m registers _ henters fun hs => ?_
  have hready : (values.getD (l.stateBase + 2) .invalid).valid := by
    rw [hstart.registers]
    have hbound := hstart.placed.created.parameters.bound
    exact registersAt_of_mem hmem haccepted.state.1 (by omega)
  refine hbody.runs (h.part.trans hpart) (fun _ => hready) s m registers c index hs hlooping
    hindexed.le fun s₃ registers₃ hs₃ hlooping₃ _ => ?_
  have hindexed₃ := hindexed.after hstep hindexed.le
  rw [Nat.sub_self] at hindexed₃
  rw [Nat.add_sub_cancel] at hlooping₃
  have hcount := toNat_sub_ofNat hindexed.le
  exact hcontinues aFirst xFirst n (hagain.mono hin₃) (hexit.mono hin₃) hexitRuns hbegins s₃ m
    registers₃ _ _ hs₃ hlooping₃ hindexed₃ (by omega)

end groups

/-! ## Dispatching -/

section choosing

variable {ascending : Bool} {factor : Nat} {delta : Word} {lhs rhs v : Value}

/-- A choice of emissions before a common rest. -/
lemma ite_bind_run_eq_ok {α β : Type} {P : Prop} [Decidable P] {x y : EmitGraph α}
    {k : α → EmitGraph β} {result : β} :
    (if P then x >>= k else y >>= k) e = .ok result e' ↔
      ∃ middle e₁, (if P then x else y) e = .ok middle e₁ ∧ k middle e₁ = .ok result e' := by
  split_ifs <;> exact bind_run_eq_ok

/-- Whether the last index of a group has not wrapped; a single copy needs no such test. -/
lemma grows_advances (h : (if factor = 1 then emitConstant 1 else emitOrdered ascending .lessThan lhs rhs)
    e = .ok v e') : Code.Grows e.builder e'.builder := by
  rcases ite_run_eq_ok.mp h with ⟨-, h⟩ | ⟨-, h⟩
  · exact grows_emitConstant h
  · exact grows_emitOrdered h

/-- The test has a value only when the builder accepted it. -/
lemma accepts_of_advances
    (h : (if factor = 1 then emitConstant 1 else emitOrdered ascending .lessThan lhs rhs) e = .ok v e')
    (hvalid : v.valid) : e.builder.accepts := by
  rcases ite_run_eq_ok.mp h with ⟨-, h⟩ | ⟨-, h⟩
  · cases h
    exact Code.valid_append.mp hvalid
  · exact accepts_of_emitOrdered h hvalid

/-- The emitted test says whether a whole group of iterations is left. -/
lemma obtains_advances (host : Host)
    (h : (if factor = 1 then emitConstant 1 else emitOrdered ascending .lessThan lhs rhs) e = .ok v e')
    (haccepts : e.builder.accepts) (hpart : e'.builder.function.PartOf f)
    (hlength : s.words.length = f.nodes.length)
    (hlhs : lhs.valid ∧ lhs.index < e.builder.function.nodes.length)
    (hrhs : rhs.valid ∧ rhs.index < e.builder.function.nodes.length) (m : Machine) :
    ∃ s' w, Obtains (f.code host) e e' v s m w s' ∧
      (w ≠ 0 → factor = 1 ∨ along ascending (s.word lhs) < along ascending (s.word rhs)) := by
  rcases ite_run_eq_ok.mp h with ⟨hfactor, h⟩ | ⟨-, h⟩
  · obtain ⟨s', h'⟩ := obtains_emitConstant (f.code host) h haccepts hpart hlength m
    exact ⟨s', _, h', fun _ => .inl hfactor⟩
  · obtain ⟨s', h'⟩ := obtains_emitOrdered (f.code host) h haccepts hpart hlength hlhs hrhs m
    exact ⟨s', _, h', fun hne => .inr (ordered_lessThan.mp hne)⟩

/-- The block of the test goes on with the copies or with a single iteration. -/
lemma yields_group {unrollCheck unrolled scalar : Block} {arguments values : List Value}
    {hasFullGroup : Value} {kFirst uFirst sFirst : Nat} {last : Word}
    (haccepted : AcceptedLoop p l guarded) (harrives : Arrives f l a)
    (hascending : ascending = a.ascending) (hmem : l.stateBase + 1 ∈ l.carried)
    (hplaced : Placed f a e.builder unrollCheck kFirst (l.carried.length + 1))
    (hunrolled : Placed f a e.builder unrolled uFirst l.carried.length)
    (hscalar : Placed f a e.builder scalar sFirst l.carried.length)
    (harguments : blockArguments unrollCheck l.carried.length e = .ok arguments e)
    (hregisters : blockRegisters p l.carried unrollCheck e = .ok values e)
    (hfull : emitOrdered ascending .lessEqual (e.builder.blockParameter unrollCheck l.carried.length)
      (values.getD (l.stateBase + 1) .invalid) e = .ok hasFullGroup e₁)
    (hbranch : emitBranch hasFullGroup unrolled arguments scalar arguments e₁ = .ok () e')
    (hpart : e'.builder.function.PartOf f)
    (hbeginsUnrolled :
      BeginsAt f host p l a unrolled uFirst (fun c index _ => Indexed a k c index) n)
    (hbeginsScalar : BeginsAt f host p l a scalar sFirst (fun c index _ => Indexed a 0 c index) n)
    (henters : Enters l a kFirst registers s) (hlooping : l.Looping registers c a.step index)
    (hlast : s.word (.ofIndex (kFirst + l.carried.length)) = last)
    (hgroup : along a.ascending last ≤ along a.ascending a.limit → Indexed a k c index)
    (hindexed : Indexed a 0 c index) (hlt : c.toNat < n) :
    f.Yields host e.builder s m (Agrees p ⟨l.preparationPc + 1, registers⟩) := by
  have hpart₁ := (partOf_emitBranch hbranch).trans hpart
  have hin := (inBlock_of_grows (grows_emitOrdered hfull)).part
  have hpart₀ := hin.trans hpart₁
  rw [(hplaced.remaining hpart₀).1] at hfull
  obtain ⟨rfl, -⟩ := blockArguments_run hplaced.created hpart₀ (Nat.le_succ _) harguments
  obtain ⟨rfl, -⟩ := blockRegisters_run hplaced.created hpart₀ (Nat.le_succ _) hregisters
  have haccepts := accepts_of_emitOrdered hfull (valid_of_emitBranch hbranch).1
  obtain ⟨s', w, h', hwithin⟩ := obtains_within host haccepted harrives hascending hmem hplaced rfl
    hfull haccepts hpart₁ henters hlast m
  have henters' := hplaced.enters_mono (Nat.le_succ _) henters h'.keeps
  refine h'.leads _ (ControlFlowFunction.Yields.branch_to (emitBranch_run hbranch) hpart
    hunrolled.created.parameters hscalar.created.parameters
    (henters'.keeps.length.trans harrives.length) (fun hne _ s'' hpasses => ?_)
    fun _ _ s'' hpasses => ?_)
  · rw [h'.word] at hne
    exact hbeginsUnrolled s'' m registers c index
      (enters_of_forwarded le_rfl hunrolled henters' hpasses) hlooping (hgroup (hwithin.mp hne)) hlt
  · exact hbeginsScalar s'' m registers c index (enters_of_forwarded le_rfl hscalar henters' hpasses)
      hlooping hindexed hlt

/-- A group of iterations is begun if its last index is within the limit. -/
lemma fragment_emitIndexChoice (host : Host) (howned : f.Owned) (haccepted : AcceptedLoop p l guarded)
    (harrives : Arrives f l a) (hstep : a.step ≠ 0) (hascending : ascending = a.ascending)
    (hdelta : factor = 1 ∨ factor = 8 ∧
      along a.ascending delta = 7 * along a.ascending a.step)
    (hquiet : ∀ n, host.exitPollRequested n = false) (hindexMem : l.stateBase + 2 ∈ l.carried)
    (hlimitMem : l.stateBase + 1 ∈ l.carried) {dispatch unrollCheck unrolled scalar : Block}
    (hcheck : e.builder.function.PartOf f → ∃ kFirst,
      Placed f a e.builder unrollCheck kFirst (l.carried.length + 1))
    (h : emitIndexChoice p l ascending factor delta dispatch unrollCheck unrolled scalar e =
      .ok () e') :
    f.Fragment e.builder e'.builder (∀ dFirst uFirst sFirst n,
      Placed f a e.builder dispatch dFirst l.carried.length →
      Placed f a e.builder unrolled uFirst l.carried.length →
      Placed f a e.builder scalar sFirst l.carried.length →
      BeginsAt f host p l a unrolled uFirst (fun c index _ => Indexed a (factor - 1) c index) n →
      BeginsAt f host p l a scalar sFirst (fun c index _ => Indexed a 0 c index) n →
      BeginsAt f host p l a dispatch dFirst (fun c index _ => Indexed a 0 c index) n) := by
  simp only [emitIndexChoice, bind_run_eq_ok] at h
  obtain ⟨⟨⟩, e₁, hset, ⟨⟩, e₂, hsafepoint, arguments, e₃, harguments, values, e₄, hregisters,
    distance, e₅, hdistance, lastIndex, e₆, hadd, h⟩ := h
  obtain ⟨advances, e₇, hadvances, h⟩ := ite_bind_run_eq_ok.mp h
  simp only [bind_run_eq_ok] at h
  obtain ⟨⟨⟩, e₈, hbranch, ⟨⟩, e₉, hset', arguments', e₁₀, harguments', values', e₁₁, hregisters',
    lastIndex', e₁₂, hinspect, hasFullGroup, e₁₃, hfull, hbranch'⟩ := h
  obtain ⟨-, rfl⟩ := inspect_run harguments
  obtain ⟨-, rfl⟩ := inspect_run hregisters
  obtain ⟨-, rfl⟩ := inspect_run harguments'
  obtain ⟨-, rfl⟩ := inspect_run hregisters'
  obtain ⟨hlastIndex, rfl⟩ := inspect_run hinspect
  obtain ⟨poll, hrun, hpoll⟩ := emitSafepoint_run hsafepoint
  have hin₂ := inBlock_emitSafepoint hsafepoint
  have hgrows := ((grows_emitConstant hdistance).trans (grows_emitBinary hadd)).trans
    (grows_advances hadvances)
  have hgrows' := grows_emitOrdered hfull
  have hfirst : f.Closing e₁.builder e₈.builder True :=
    .of_inBlock hin₂ (.of_inBlock (inBlock_of_grows hgrows) (closing_emitBranch hbranch))
  have hsecond : f.Closing e₉.builder e'.builder True :=
    .of_inBlock (inBlock_of_grows hgrows') (closing_emitBranch hbranch')
  have hfilled := hsecond.filled host howned (setInsertionBlock_run hset')
  refine ((hfirst.and hfilled).filled host howned (setInsertionBlock_run hset)).imp
    fun hpart hruns dFirst uFirst sFirst n hdispatch hunrolled hscalar hbeginsUnrolled hbeginsScalar
      s m registers c index henters hlooping hindexed hlt => ?_
  obtain ⟨⟨-, -, hruns'⟩, hruns⟩ := hruns
  have hpart₁₃ := (partOf_emitBranch hbranch').trans hpart
  have hpart₉ := (inBlock_of_grows hgrows').part.trans hpart₁₃
  have hin₈ := partOf_emitBranch hbranch
  have hin₉ := partOf_setInsertionBlock (setInsertionBlock_run hset')
  have hpart₈ := hin₉.trans hpart₉
  have hpart₇ := hin₈.trans hpart₈
  have hpart₆ := (inBlock_of_grows (grows_advances hadvances)).part.trans hpart₇
  have hpart₅ := (inBlock_of_grows (grows_emitBinary hadd)).part.trans hpart₆
  have hpart₂ := (inBlock_of_grows (grows_emitConstant hdistance)).part.trans hpart₅
  have hin₁ := partOf_setInsertionBlock (setInsertionBlock_run hset)
  have hin₇ := (hin₁.trans hin₂.part).trans (inBlock_of_grows hgrows).part
  have hinto := (hin₇.trans hin₈).trans hin₉
  obtain ⟨kFirst, hplaced⟩ := hcheck (hin₇.trans hpart₇)
  have hdispatch₂ := hdispatch.mono (hin₁.trans hin₂.part)
  obtain ⟨rfl, -⟩ := blockArguments_run hdispatch₂.created hpart₂ le_rfl harguments
  obtain ⟨rfl, -⟩ := blockRegisters_run hdispatch₂.created hpart₂ le_rfl hregisters
  refine hruns s m _ (.safepoint hquiet hrun hpoll hpart₂ fun m' => ?_)
  have hkeeps := Keeps.setWord s e₁.builder.function.nodes.length 0
  have henters₂ := (hdispatch.mono hin₁).enters_mono le_rfl henters hkeeps
  have hs₂ := hdispatch₂.inside le_rfl henters₂ p
  have hready : ((registersAt p l.carried dFirst).getD (l.stateBase + 2) .invalid).valid := by
    have hbound := hdispatch₂.created.parameters.bound
    exact registersAt_of_mem hindexMem haccepted.state.1 (by omega)
  obtain ⟨hindexLt, hindexWord⟩ := hs₂.holds.word_index hlooping hready
  have haccepts₆ := accepts_of_advances hadvances (valid_of_emitBranch hbranch).1
  have haccepts₅ := (grows_emitBinary hadd).accepts haccepts₆
  have hle₅ := (grows_emitConstant hdistance).size_le
  have hle₆ := (grows_emitBinary hadd).size_le
  have hlength₂ := hs₂.length harrives
  obtain ⟨s₅, h₅⟩ := obtains_emitConstant (f.code host) hdistance
    ((grows_emitConstant hdistance).accepts haccepts₅) hpart₅ hlength₂ m'
  obtain ⟨s₆, h₆⟩ := obtains_emitBinary (f.code host) hadd haccepts₅ hpart₆
    (h₅.keeps.length.trans hlength₂) (hindexLt.trans_le hle₅) ⟨h₅.valid, h₅.index_lt⟩ m'
  have hkeeps₆ := h₅.keeps.trans h₆.keeps hle₅
  obtain ⟨s₇, w, h₇, hadvance⟩ := obtains_advances host hadvances haccepts₆ hpart₇
    (hkeeps₆.length.trans hlength₂) ⟨hready, hindexLt.trans_le (hle₅.trans hle₆)⟩
    ⟨h₆.valid, h₆.index_lt⟩ m'
  have hlast : s₆.word lastIndex = index + delta := by
    rw [h₆.word, h₅.word, h₅.keeps.word _ hindexLt, hindexWord]
    rfl
  rw [hkeeps₆.word _ hindexLt, hindexWord, hlast] at hadvance
  have henters₇ := hdispatch₂.enters_mono le_rfl henters₂ (hkeeps₆.trans h₇.keeps (hle₅.trans hle₆))
  refine h₅.leads _ (h₆.leads _ (h₇.leads _ (ControlFlowFunction.Yields.branch_to
    (emitBranch_run hbranch) hpart₈ (hplaced.mono hin₇).created.parameters
    (hscalar.mono hin₇).created.parameters (henters₇.keeps.length.trans harrives.length)
    (fun hne hcount s' hpasses => ?_) fun _ _ s' hpasses => ?_)))
  · have hlengths :
        ((List.range l.carried.length).map fun index => Value.ofIndex (dFirst + index)).length =
          l.carried.length := by simp
    have henters' := enters_of_passes hpasses (Nat.le_succ _) henters₇.keeps hplaced.bound
      ((henters₇.supplies le_rfl).append hlengths [lastIndex])
    have hlast' : s'.word (.ofIndex (kFirst + l.carried.length)) = index + delta :=
      (passedOn_of_passes hpasses hlengths hcount 0 (by simp)).trans
        ((h₇.keeps.word _ h₆.index_lt).trans hlast)
    subst hlastIndex
    refine hruns' s' m' _ (yields_group haccepted harrives hascending hlimitMem (hplaced.mono hinto)
      (hunrolled.mono hinto) (hscalar.mono hinto) harguments' hregisters' hfull hbranch' hpart
      hbeginsUnrolled hbeginsScalar henters' hlooping hlast' (fun hwithin => ?_) hindexed hlt)
    rw [h₇.word] at hne
    exact hindexed.group hstep hdelta (hascending ▸ hadvance hne) hwithin
  · exact hbeginsScalar s' m' registers c index (enters_of_forwarded le_rfl hscalar henters₇ hpasses)
      hlooping hindexed hlt

end choosing

/-! ## The loop -/

/-- The distance between the first and the last index of a group does not overflow. -/
lemma along_delta (a : Arrival) (optimized : Bool) : unrollFactor optimized a.step = 1 ∨
    unrollFactor optimized a.step = 8 ∧
      along a.ascending (if unrollFactor optimized a.step = 8 then a.step * 7 else 0) =
        7 * along a.ascending a.step := by
  have hfactor : unrollFactor optimized a.step = 1 ∨ unrollFactor optimized a.step = 8 ∧
      (0 < a.step.toInt ∧ a.step.toInt ≤ (2 ^ 63 - 1) / 7 ∨
        a.step.toInt ≤ 0 ∧ (-2 ^ 63 : Int).tdiv 7 ≤ a.step.toInt) := by
    unfold unrollFactor
    split_ifs with hbounds
    · exact .inr ⟨rfl, hbounds.2⟩
    · exact .inl rfl
  refine hfactor.imp_right fun h => ⟨h.1, ?_⟩
  have hbounds := h.2
  have hseven : (7 : Word).toInt = 7 := rfl
  have hquotient : (-2 ^ 63 : Int).tdiv 7 = -1317624576693539401 := rfl
  have hquotient' : ((2 : Int) ^ 63 - 1) / 7 = 1317624576693539401 := rfl
  rw [hquotient, hquotient'] at hbounds
  have hproduct : (a.step * 7).toInt = 7 * a.step.toInt := by
    rw [BitVec.toInt_mul, hseven, Int.bmod_def]
    split_ifs <;> omega
  rw [if_pos h.1]
  unfold along
  rw [hproduct]
  split_ifs <;> ring

/-- A loop whose step is a constant. -/
lemma closing_emitConstantStepLoop {optimized : Bool} {step : Word} (howned : f.Owned)
    (haccepted : AcceptedLoop p l guarded) (harrives : Arrives f l a)
    (hreserves : p.Reserves l.preparationPc l.loopPc l.stateBase) (hstep : a.step = step)
    (hne : a.step ≠ 0) (hindexMem : l.stateBase + 2 ∈ l.carried)
    (hlimitMem : l.stateBase + 1 ∈ l.carried) (hbound : a.bound ≤ e.builder.function.nodes.length)
    (hinsertion : e.builder.function.validBlock e.builder.insertionBlock)
    (hquiet : ∀ n, host.exitPollRequested n = false)
    (h : emitConstantStepLoop p l optimized step e = .ok () e') :
    f.Closing e.builder e'.builder (RunsLoop f host p l a e.builder) := by
  subst hstep
  simp only [emitConstantStepLoop, bind_run_eq_ok, check_eq_ok] at h
  obtain ⟨dispatch, e₁, hdispatch, unrollCheck, e₂, hunrollCheck, unrolled, e₃, hunrolled,
    unrolledContinue, e₄, hunrolledContinue, scalar, e₅, hscalar, scalarContinue, e₆, hscalarContinue,
    exit, e₇, hexit, ⟨⟩, _, ⟨hvalid, rfl⟩, ⟨⟩, e₈, hentry, ⟨⟩, e₉, hchoice, ⟨⟩, e₁₀, hset, values, e₁₁,
    hregisters, values₁, e₁₂, hcopies, ⟨⟩, e₁₃, hcontinue, ⟨⟩, e₁₄, hset', values₂, e₁₅, hregisters',
    ⟨values₃, returned⟩, e₁₆, htranslate, ⟨⟩, e₁₇, hcontinue', hexits⟩ := h
  obtain ⟨hin₁, hbound₁, hdispatch⟩ := createBlock_placed howned hbound hdispatch
  obtain ⟨hin₂, hbound₂, hunrollCheck⟩ := createBlock_placed howned hbound₁ hunrollCheck
  obtain ⟨hin₃, hbound₃, hunrolled⟩ := createBlock_placed howned hbound₂ hunrolled
  obtain ⟨hin₄, hbound₄, hlength, hunrolledContinue⟩ :=
    createBlocks_placed howned hbound₃ hunrolledContinue
  obtain ⟨hin₅, hbound₅, hscalar⟩ := createBlock_placed howned hbound₄ hscalar
  obtain ⟨hin₆, hbound₆, hlength', hscalarContinue⟩ :=
    createBlocks_placed howned hbound₅ hscalarContinue
  obtain ⟨hin₇, hbound₇, hexit⟩ := createBlock_placed howned hbound₆ hexit
  have hlast₆ := hin₇.inBlock.part
  have hlast₅ := hin₆.inBlock.part.trans hlast₆
  have hlast₄ := hin₅.inBlock.part.trans hlast₅
  have hlast₃ := hin₄.inBlock.part.trans hlast₄
  have hlast₂ := hin₃.inBlock.part.trans hlast₃
  have hlast₁ := hin₂.inBlock.part.trans hlast₂
  have hin := (((((hin₁.trans hin₂).trans hin₃).trans hin₄).trans hin₅).trans hin₆).trans hin₇
  have hunit : ∀ {blocks : List Block},
      blocks.length = (if a.step = 1 ∨ a.step = -1 then 0 else 1) → blocks.head? = none →
      a.step = 1 ∨ a.step = -1 := by
    intro blocks hcount hnone
    by_contra hnot
    rw [if_neg hnot, List.head?_eq_none_iff.mp hnone] at hcount
    cases hcount
  rw [← List.append_nil l.initialArguments] at hentry
  have hentered := closing_emitKnownEntry haccepted harrives host rfl hentry
  have hchoice := fragment_emitIndexChoice host howned haccepted harrives hne rfl
    (along_delta a optimized) hquiet hindexMem hlimitMem (fun hpart => hunrollCheck
      (hvalid _ (by simp)) _ (hlast₂.trans hentered.part) hpart) hchoice
  obtain ⟨copies, hfactor⟩ : ∃ copies, unrollFactor optimized a.step = copies + 1 := by
    rcases along_delta a optimized with hfactor | ⟨hfactor, -⟩
    · exact ⟨0, hfactor⟩
    · exact ⟨7, hfactor⟩
  rw [hfactor] at hcopies hchoice
  rw [Nat.add_sub_cancel] at hchoice
  have hgroup := fragment_of_copies howned haccepted harrives hreserves hne host hindexMem
    hset hregisters hcopies fun hin₁₂ => closing_emitContinue haccepted harrives hne rfl howned
      hlimitMem (hunit hlength) (fun hpart block hmem => hunrolledContinue block
        (List.mem_of_mem_head? hmem) (hvalid _ (by simp [List.mem_of_mem_head? hmem])) _
        (hlast₄.trans (hentered.part.trans (hchoice.part.trans hin₁₂))) hpart) hcontinue
  have hcopies' : emitCopies p l (0 + 1) values₂ e₁₅ = .ok values₃ e₁₆ :=
    bind_run_eq_ok.mpr ⟨_, _, htranslate, rfl⟩
  have hiteration := fragment_of_copies howned haccepted harrives hreserves hne host
    hindexMem hset' hregisters' hcopies' fun hin₁₆ => closing_emitContinue haccepted harrives hne rfl
      howned hlimitMem (hunit hlength') (fun hpart block hmem => hscalarContinue block
        (List.mem_of_mem_head? hmem) (hvalid _ (by simp [List.mem_of_mem_head? hmem])) _
        (hlast₆.trans (hentered.part.trans (hchoice.part.trans (hgroup.part.trans hin₁₆)))) hpart)
      hcontinue'
  have hexits : f.Fragment e₁₇.builder e'.builder (∀ first,
      Placed f a e₁₇.builder exit first l.carried.length → ExitRuns f host p l a exit first) :=
    fragment_emitExit howned harrives hreserves haccepted.latch.1 hexits
  refine (ControlFlowFunction.Closing.of_inBlock hin.inBlock ((((hentered.and hchoice).and hgroup).and
    hiteration).and hexits)).imp fun hpart hruns s m registers hat hkeeps => hin.yields hinsertion ?_
  obtain ⟨⟨⟨⟨henters, hchooses⟩, hgroups⟩, hiterates⟩, hexitRuns⟩ := hruns
  have hin₉ := hentered.part.trans hchoice.part
  have hin₁₃ := hin₉.trans hgroup.part
  have hin₁₇ := hin₁₃.trans hiteration.part
  have hpart₇ := hin₁₇.trans (hexits.part.trans hpart)
  obtain ⟨dFirst, hdispatch⟩ := hdispatch (hvalid _ (by simp)) _ hlast₁ hpart₇
  obtain ⟨uFirst, hunrolled⟩ := hunrolled (hvalid _ (by simp)) _ hlast₃ hpart₇
  obtain ⟨sFirst, hscalar⟩ := hscalar (hvalid _ (by simp)) _ hlast₅ hpart₇
  obtain ⟨xFirst, hexit⟩ := hexit (hvalid _ (by simp)) _ (.refl _) hpart₇
  have hexitRuns := hexitRuns xFirst (hexit.mono hin₁₇)
  have hscalarBegins := begins_of_dispatch (fun n hbegins => hbegins) fun n =>
    hiterates sFirst sFirst xFirst n (hscalar.mono hin₁₃) (hscalar.mono hin₁₃) (hexit.mono hin₁₃)
      hexitRuns
  have hbegins := begins_of_dispatch (fun n hbegins => hchooses dFirst uFirst sFirst n
    (hdispatch.mono hentered.part) (hunrolled.mono hentered.part) (hscalar.mono hentered.part) hbegins
    (hscalarBegins n)) fun n => hgroups uFirst dFirst xFirst n (hunrolled.mono hin₉)
      (hdispatch.mono hin₉) (hexit.mono hin₉) hexitRuns
  exact henters dFirst _ xFirst _ s m registers hdispatch hexit (hbegins (2 ^ 64)) hexitRuns hat hkeeps
    hbound₇ fun hskips _ _ _ _ => indexed_entered hne hskips

end indexing

end UniJit.Lua
