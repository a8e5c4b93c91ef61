import UniJit.Ir.FilledBlocks
import UniJit.Lua.IntegerRuns

/-!
# The blocks of a translated loop

What the registers hold passes from block to block as the parameters of blocks. Where a run enters
a block of the loop, the parameters of that block hold the words of the carried registers
(`Enters`), and the arguments of an edge must supply them (`Supplies`).

Two registers of the machine are not what the translation has for them: the first register of the
loop counts its iterations, where the translation keeps the start, and the second one holds the
step, where the translation keeps the limit. Compiled code reads neither (`Proto.Stock`); the limit
is followed all the same, because some loops compare with it (`LoopSite.view`).
-/

namespace UniJit.Lua

open UniJit.Ir UniJit.Lib UniJit.Runtime LawfulScalarBuilder ControlFlowBuilder

/-! ## The registers of a loop -/

namespace LoopSite

variable (l : LoopSite)

/-- The registers of the machine, with the limit where the translation has it. -/
def view (limit : Word) (registers : Registers) : Registers :=
  Function.update registers (l.stateBase + 1) (some limit)

/-- The registers at the start of the next iteration. -/
def advance (registers : Registers) (count index : Word) : Registers :=
  Function.update (Function.update registers l.stateBase (some count)) (l.stateBase + 2) (some index)

/-- The registers that mean the same to the machine and to the translation. -/
def Known (r : Nat) : Prop := r ≠ l.stateBase ∧ r ≠ l.stateBase + 1

/-- The values of the translation hold the words of the registers, and the limit. -/
abbrev HoldsLoop (limit : Word) (values : List Value) (registers : Registers) (bound : Nat)
    (s : Values) : Prop :=
  HoldsWords (· ≠ l.stateBase) values (l.view limit registers) bound s

/-- What the machine has in the registers of the loop during an iteration. -/
structure Looping (registers : Registers) (count step index : Word) : Prop where
  count : registers l.stateBase = some count
  step : registers (l.stateBase + 1) = some step
  index : registers (l.stateBase + 2) = some index

variable {l} {limit count step index count' index' : Word} {registers registers' : Registers}
  {values : List Value} {bound : Nat} {s : Values}

lemma view_of_known {r : Nat} (h : l.Known r) : l.view limit registers r = registers r :=
  Function.update_of_ne h.2 _ _

/-- What a loop holds it holds of the known registers. -/
lemma HoldsLoop.known (h : l.HoldsLoop limit values registers bound s) :
    HoldsWords l.Known values registers bound s :=
  h.mono (fun _ hr => hr.1) (fun _ hr => (view_of_known hr).symm) (.refl _ s) le_rfl

/-- What is known of the registers, with the limit where it was before. -/
lemma HoldsLoop.of_known {values' : List Value} {bound' : Nat} {s' : Values}
    (h : l.HoldsLoop limit values registers bound s) (hkeeps : Keeps bound s s')
    (hle : bound ≤ bound') (h' : HoldsWords l.Known values' registers' bound' s')
    (hlimit : values'.getD (l.stateBase + 1) .invalid = values.getD (l.stateBase + 1) .invalid) :
    l.HoldsLoop limit values' registers' bound' s' := by
  intro r hr hvalid
  by_cases hsecond : r = l.stateBase + 1
  · subst hsecond
    rw [hlimit] at hvalid ⊢
    obtain ⟨hlt, hregister⟩ := h _ hr hvalid
    refine ⟨hlt.trans_le hle, ?_⟩
    rw [hkeeps.word _ hlt, ← hregister, view, view, Function.update_self, Function.update_self]
  · rw [view_of_known ⟨hr, hsecond⟩]
    exact h' r ⟨hr, hsecond⟩ hvalid

/-- The word of the index. -/
lemma HoldsLoop.word_index (h : l.HoldsLoop limit values registers bound s)
    (hs : l.Looping registers count step index)
    (hvalid : (values.getD (l.stateBase + 2) .invalid).valid) :
    (values.getD (l.stateBase + 2) .invalid).index < bound ∧
      s.word (values.getD (l.stateBase + 2) .invalid) = index := by
  obtain ⟨hlt, hregister⟩ := h (l.stateBase + 2) (by omega) hvalid
  rw [view_of_known ⟨by omega, by omega⟩, hs.index] at hregister
  exact ⟨hlt, (Option.some.inj hregister).symm⟩

/-- The word of the limit. -/
lemma HoldsLoop.word_limit (h : l.HoldsLoop limit values registers bound s)
    (hvalid : (values.getD (l.stateBase + 1) .invalid).valid) :
    (values.getD (l.stateBase + 1) .invalid).index < bound ∧
      s.word (values.getD (l.stateBase + 1) .invalid) = limit := by
  obtain ⟨hlt, hregister⟩ := h (l.stateBase + 1) (by omega) hvalid
  rw [view, Function.update_self] at hregister
  exact ⟨hlt, (Option.some.inj hregister).symm⟩

/-- A loop that is advanced is looping with its new count and index. -/
lemma Looping.advance (h : l.Looping registers count step index) (count' index' : Word) :
    l.Looping (l.advance registers count' index') count' step index' := by
  refine ⟨?_, ?_, Function.update_self ..⟩
  · rw [LoopSite.advance, Function.update_of_ne (by omega), Function.update_self]
  · rw [LoopSite.advance, Function.update_of_ne (by omega), Function.update_of_ne (by omega), h.step]

/-- Keeping the loop's state keeps it looping. -/
lemma Looping.of_kept (h : l.Looping registers count step index)
    (hkept : ∀ r, l.stateBase ≤ r ∧ r ≤ l.stateBase + 2 → registers' r = registers r) :
    l.Looping registers' count step index :=
  ⟨(hkept _ (by omega)).trans h.count, (hkept _ (by omega)).trans h.step,
    (hkept _ (by omega)).trans h.index⟩

/-- Advancing shows in the view of the visible index only. -/
lemma view_advance {r : Nat} (hr : r ≠ l.stateBase) :
    l.view limit (l.advance registers count index) r =
      Function.update (l.view limit registers) (l.stateBase + 2) (some index) r := by
  simp only [view, advance, Function.update_apply, hr, if_false]
  split_ifs <;> first | rfl | omega

end LoopSite

/-! ## Entering a block -/

/-- What the registers hold at the start of a block whose parameters are the values from `first`
on. -/
def registersAt (p : Proto) (carried : List Nat) (first : Nat) : List Value :=
  (List.range p.maxstacksize).map fun r =>
    (carried.idxOf? r).elim .invalid fun index => .ofIndex (first + index)

/-- A register with a value in a block is one that is carried. -/
lemma registersAt_of_valid {p : Proto} {carried : List Nat} {first r : Nat}
    (h : ((registersAt p carried first).getD r .invalid).valid) :
    ∃ index, carried[index]? = some r ∧
      (registersAt p carried first).getD r .invalid = .ofIndex (first + index) := by
  have hstack : r < p.maxstacksize := by
    by_contra hstack
    rw [registersAt, List.getD, List.getElem?_eq_none (by simpa using hstack)] at h
    exact not_valid_invalid h
  rw [registersAt, List.getD, List.getElem?_map, List.getElem?_range hstack] at h ⊢
  rcases hindex : carried.idxOf? r with - | index
  · simp [hindex, not_valid_invalid] at h
  · refine ⟨index, ?_, by simp [hindex]⟩
    obtain ⟨hlt, hget, -⟩ := List.findIdx?_eq_some_iff_getElem.mp hindex
    rw [List.getElem?_eq_getElem hlt, beq_iff_eq.mp hget]

/-- A carried register has a value in the block. -/
lemma registersAt_of_mem {p : Proto} {carried : List Nat} {first r : Nat} (hr : r ∈ carried)
    (hstack : r < p.maxstacksize) (hbound : first + carried.length ≤ kInvalidIndex.toNat) :
    ((registersAt p carried first).getD r .invalid).valid := by
  rw [registersAt, List.getD, List.getElem?_map, List.getElem?_range hstack]
  rcases hindex : carried.idxOf? r with - | index
  · exact absurd (List.idxOf?_eq_none_iff.mp hindex) (not_not.mpr hr)
  · obtain ⟨hlt, -⟩ := List.findIdx?_eq_some_iff_getElem.mp hindex
    simp only [Option.map_some, Option.getD_some, hindex, Option.elim_some]
    exact Value.valid_ofIndex (by omega)

/-! ## Arriving at a loop -/

/-- A run that has come to a loop: its values there, of which those below a bound stay, and the words
of the loop. -/
structure Arrival where
  bound : Nat
  values : Values
  start : Word
  limit : Word
  step : Word

/-- The values of a loop hold its words. -/
structure Arrives (f : ControlFlowFunction) (l : LoopSite) (a : Arrival) : Prop where
  length : a.values.words.length = f.nodes.length
  start : l.start.index < a.bound ∧ a.values.word l.start = a.start
  limit : l.limit.index < a.bound ∧ a.values.word l.limit = a.limit
  step : l.step.index < a.bound ∧ a.values.word l.step = a.step
  valid : l.start.valid ∧ l.limit.valid ∧ l.step.valid

/-- The arguments of an edge hold the words of the carried registers. -/
def Supplies (l : LoopSite) (limit : Word) (registers : Registers) (s : Values)
    (arguments : List Value) : Prop :=
  ∀ (index r : Nat), l.carried[index]? = some r → r ≠ l.stateBase →
    l.view limit registers r = some (s.word (arguments.getD index .invalid))

/-- What holds where a run enters a block of the loop. -/
structure Enters (l : LoopSite) (a : Arrival) (first : Nat) (registers : Registers) (s : Values) :
    Prop where
  keeps : Keeps a.bound a.values s
  carried : ∀ (index r : Nat), l.carried[index]? = some r → r ≠ l.stateBase →
    l.view a.limit registers r = some (s.word (.ofIndex (first + index)))

/-- What holds at a point in a block of the loop. -/
structure Inside (l : LoopSite) (a : Arrival) (values : List Value) (registers : Registers)
    (bound : Nat) (s : Values) : Prop where
  le : a.bound ≤ bound
  keeps : Keeps a.bound a.values s
  holds : l.HoldsLoop a.limit values registers bound s

section entering

variable {f : ControlFlowFunction} {p : Proto} {l : LoopSite} {a : Arrival} {first count bound : Nat}
  {registers registers' : Registers} {s s' : Values} {values arguments : List Value} {v : Value}

/-- Entering a block puts the carried registers inside. -/
lemma Enters.inside (h : Enters l a first registers s) (p : Proto) (hfirst : a.bound ≤ first)
    (hlarge : first + l.carried.length ≤ kInvalidIndex.toNat)
    (hbound : first + l.carried.length ≤ bound) :
    Inside l a (registersAt p l.carried first) registers bound s := by
  refine ⟨by omega, h.keeps, fun r hr hvalid => ?_⟩
  obtain ⟨index, hget, heq⟩ := registersAt_of_valid hvalid
  have hlt := (List.getElem?_eq_some_iff.mp hget).1
  rw [heq, Value.index_ofIndex (by omega)]
  exact ⟨by omega, h.carried index r hget hr⟩

lemma Inside.mono (h : Inside l a values registers bound s) {bound' : Nat} (hkeeps : Keeps bound s s')
    (hle : bound ≤ bound') : Inside l a values registers bound' s' :=
  ⟨h.le.trans hle, h.keeps.trans hkeeps h.le, h.holds.mono (fun _ hr => hr) (fun _ _ => rfl) hkeeps hle⟩

/-- Passing the supplied arguments enters the block. -/
lemma enters_of_passes (h : ControlFlowFunction.Passes first count arguments s s')
    (hcount : l.carried.length ≤ count)
    (hkeeps : Keeps a.bound a.values s) (hbound : a.bound ≤ first)
    (hsupplies : Supplies l a.limit registers s arguments) :
    Enters l a first registers s' := by
  refine ⟨hkeeps.trans ⟨h.keeps.length, fun v hv => h.keeps.word v (by omega)⟩ le_rfl, ?_⟩
  intro index r hget hr
  have hlt := (List.getElem?_eq_some_iff.mp hget).1
  rw [h.word index (by omega), hsupplies index r hget hr]

/-! ### Arguments -/

/-- A completed body supplies the carried registers. -/
lemma supplies_completed (h : l.HoldsLoop a.limit values registers bound s)
    (hvalid : ∀ r ∈ l.carried, (values.getD r .invalid).valid) :
    Supplies l a.limit registers s (l.carried.map fun r => values.getD r .invalid) := by
  intro index r hget hr
  have hmem := List.mem_of_getElem? hget
  rw [List.getD, List.getElem?_map, hget]
  exact (h r hr (hvalid r hmem)).2

/-- Further arguments do not change the supply. -/
lemma Supplies.append {limit : Word} (h : Supplies l limit registers s arguments)
    (hlength : arguments.length = l.carried.length) (rest : List Value) :
    Supplies l limit registers s (arguments ++ rest) := by
  intro index r hget hr
  have hlt := (List.getElem?_eq_some_iff.mp hget).1
  rw [List.getD, List.getElem?_append_left (by omega)]
  exact h index r hget hr

/-- The arguments of the edge to the next iteration. -/
lemma Supplies.withIndex {limit index : Word} (h : Supplies l limit registers s arguments)
    (hlength : arguments.length = l.carried.length) (hv : s.word v = index) (count : Word) :
    Supplies l limit (l.advance registers count index) s (l.withIndex arguments v) := by
  intro k r hget hr
  have hlt := (List.getElem?_eq_some_iff.mp hget).1
  have hargument := List.getElem?_eq_getElem (by omega : k < arguments.length)
  have hpair : (l.carried.zip arguments)[k]? = some (r, arguments[k]) :=
    List.getElem?_zip_eq_some.mpr ⟨hget, hargument⟩
  have hwith : (l.withIndex arguments v).getD k .invalid =
      if r = l.stateBase + 2 then v else arguments.getD k .invalid := by
    rw [LoopSite.withIndex, List.getD, List.getElem?_map, hpair, List.getD, hargument]
    rfl
  rw [LoopSite.view_advance hr, hwith, Function.update_apply]
  split_ifs with hindex
  · rw [hv]
  · exact h k r hget hr

lemma length_withIndex (hlength : arguments.length = l.carried.length) :
    (l.withIndex arguments v).length = l.carried.length := by
  simp [LoopSite.withIndex, hlength]

/-- The parameters of a block are passed on. -/
lemma Enters.supplies (h : Enters l a first registers s) {n : Nat} (hn : l.carried.length ≤ n) :
    Supplies l a.limit registers s ((List.range n).map fun index => .ofIndex (first + index)) := by
  intro index r hget hr
  have hlt := (List.getElem?_eq_some_iff.mp hget).1
  rw [List.getD, List.getElem?_map, List.getElem?_range (by omega)]
  exact h.carried index r hget hr

end entering

/-! ## Emitting blocks -/

section blocks

variable {f : ControlFlowFunction} {host : Host} {p : Proto} {l : LoopSite} {a : Arrival}
  {e e' : Emitter ControlFlowBuilder} {block : Block} {first count : Nat}

/-- What creating a block has built. -/
lemma createBlock_run (h : createBlock count e = .ok block e') :
    e.builder.createBlock (List.replicate count .word) = (block, e'.builder) := by
  cases h
  rfl

/-- A block that was created behind the bound. -/
def Available (f : ControlFlowFunction) (b : ControlFlowBuilder) (bound : Nat) (block : Block)
    (count : Nat) : Prop :=
  ∃ first, bound ≤ first ∧ f.Created b block first count

/-- An available block stays available as the builder goes on. -/
lemma Available.mono {b b' : ControlFlowBuilder} {bound bound' : Nat}
    (h : Available f b bound block count) (hpart : b.function.PartOf b'.function)
    (hbound : bound' ≤ bound) : Available f b' bound' block count := by
  obtain ⟨first, hfirst, hcreated⟩ := h
  exact ⟨first, hbound.trans hfirst, hcreated.mono hpart⟩

/-- A created block is available. -/
lemma createBlock_spec (h : createBlock count e = .ok block e') :
    e.builder.StandsStill e'.builder ∧ (f.Owned → block.valid → e'.builder.function.PartOf f →
      Available f e'.builder e.builder.function.nodes.length block count) := by
  have hrun := createBlock_run h
  refine ⟨?_, fun howned hvalid hpart =>
    ⟨_, le_rfl, ControlFlowFunction.created_of_createBlock howned hrun hvalid hpart⟩⟩
  have hbuilder : e'.builder = (e.builder.createBlock (List.replicate count .word)).2 := by rw [hrun]
  rw [hbuilder]
  exact standsStill_createBlock

/-- Created blocks are available. -/
lemma createBlocks_spec {n : Nat} {blocks : List Block} (h : createBlocks n count e = .ok blocks e') :
    e.builder.StandsStill e'.builder ∧ blocks.length = n ∧
      (f.Owned → e'.builder.function.PartOf f → ∀ block ∈ blocks, block.valid →
        Available f e'.builder e.builder.function.nodes.length block count) := by
  induction n generalizing e blocks with
  | zero =>
      obtain ⟨rfl, rfl⟩ := pure_run_eq_ok.mp h
      exact ⟨.refl _, rfl, fun _ _ block hmem => by cases hmem⟩
  | succ n ih =>
      simp only [createBlocks, bind_run_eq_ok, pure_run_eq_ok] at h
      obtain ⟨block, e₁, hcreate, rest, e₂, hrest, rfl, rfl⟩ := h
      obtain ⟨hin, hblock⟩ := createBlock_spec (f := f) hcreate
      obtain ⟨hin', hlength, hblocks⟩ := ih hrest
      refine ⟨hin.trans hin', by simp [hlength], fun howned hpart block' hmem hvalid => ?_⟩
      rcases List.mem_cons.mp hmem with rfl | hmem
      · exact (hblock howned hvalid (hin'.inBlock.part.trans hpart)).mono hin'.inBlock.part le_rfl
      · exact (hblocks howned hpart block' hmem hvalid).mono (.refl _) hin.inBlock.part.nodes.length_le

/-- What moving the insertion point has built. -/
lemma setInsertionBlock_run (h : setInsertionBlock block e = .ok () e') :
    e.builder.setInsertionBlock block = .ok e'.builder := by
  obtain ⟨b, hset, rfl⟩ := attempt_eq_ok.mp h
  exact hset

/-- The registers of a block are its parameters. -/
lemma blockRegisters_run {values : List Value} (hcreated : f.Created e.builder block first count)
    (hpart : e.builder.function.PartOf f) (hcount : l.carried.length ≤ count)
    (h : blockRegisters p l.carried block e = .ok values e') :
    values = registersAt p l.carried first ∧ e = e' := by
  cases h
  refine ⟨List.map_congr_left fun r _ => ?_, rfl⟩
  rcases hindex : l.carried.idxOf? r with - | index
  · rfl
  · obtain ⟨hlt, -⟩ := List.findIdx?_eq_some_iff_getElem.mp hindex
    exact hcreated.blockParameter hpart (by omega)

/-- The arguments of a block are its parameters. -/
lemma blockArguments_run {n : Nat} {values : List Value}
    (hcreated : f.Created e.builder block first count) (hpart : e.builder.function.PartOf f)
    (hcount : n ≤ count) (h : blockArguments block n e = .ok values e') :
    values = ((List.range n).map fun index => .ofIndex (first + index)) ∧ e = e' := by
  cases h
  refine ⟨List.map_congr_left fun index hindex => ?_, rfl⟩
  have hlt := List.mem_range.mp hindex
  exact hcreated.blockParameter hpart (by omega)

/-- The completed registers are the carried ones, all with a value. -/
lemma completedRegisters_run {values arguments : List Value} {message : String}
    (h : l.completedRegisters values message e = .ok arguments e') :
    arguments = (l.carried.map fun r => values.getD r .invalid) ∧ e = e' ∧
      ∀ r ∈ l.carried, (values.getD r .invalid).valid := by
  simp only [LoopSite.completedRegisters, bind_run_eq_ok, check_eq_ok, pure_run_eq_ok] at h
  obtain ⟨-, _, ⟨hvalid, rfl⟩, rfl, rfl⟩ := h
  exact ⟨rfl, rfl, hvalid⟩

end blocks

/-! ## Parts of the bytecode -/

/-- A part of the body does not change the values of the loop's registers. -/
lemma Straight.state {p : Proto} {base stop pc : Nat} {values values' : List Value} {returned : Bool}
    (h : Straight p (some base) stop pc values values' returned) {r : Nat}
    (hr : base ≤ r ∧ r ≤ base + 2) : values'.getD r .invalid = values.getD r .invalid := by
  induction h with
  | done => rfl
  | «return» => rfl
  | write v _ hprotected _ ih =>
      have hfree := hprotected base rfl
      rw [ih, List.getD, List.getElem?_set_ne (by omega), List.getD]

/-- A part of the body is passed by the code as by the machine. -/
structure PassesPart (f : ControlFlowFunction) (host : Host) (p : Proto) (l : LoopSite) (a : Arrival)
    (start stop : Nat) (values values' : List Value) (b b' : ControlFlowBuilder) : Prop where
  grows : Code.Grows b b'
  state : ∀ r, l.stateBase ≤ r ∧ r ≤ l.stateBase + 2 →
    values'.getD r .invalid = values.getD r .invalid
  runs : b'.function.PartOf f → ∀ s m registers,
    Inside l a values registers b.function.nodes.length s →
    (∀ s' registers', Inside l a values' registers' b'.function.nodes.length s' →
      (∀ r, l.stateBase ≤ r ∧ r ≤ l.stateBase + 2 → registers' r = registers r) →
      Keeps b.function.nodes.length s s' → f.Yields host b' s' m (Agrees p ⟨stop, registers'⟩)) →
    f.Yields host b s m (Agrees p ⟨start, registers⟩)

/-- A part of the code that ends the call. -/
structure ReturnsPart (f : ControlFlowFunction) (host : Host) (p : Proto) (known : Nat → Prop)
    (start : Nat) (values : List Value) (b b' : ControlFlowBuilder) : Prop where
  ends : ∃ last terminator, Code.Grows b last ∧ Ends last terminator b'
  runs : b'.function.PartOf f → ∀ s m registers, s.words.length = f.nodes.length →
    HoldsWords known values registers b.function.nodes.length s →
    f.Yields host b s m (Agrees p ⟨start, registers⟩)

/-- The registers that are known behind a loop: those that it leaves, and those that are written. -/
def KnownBehind (p : Proto) (l : LoopSite) (pc r : Nat) : Prop :=
  l.Known r ∨ ∃ earlier < pc, l.loopPc < earlier ∧ (p.fetch earlier).mayWrite r = true

section parts

variable (f : ControlFlowFunction) (host : Host) {p : Proto} {l : LoopSite} (a : Arrival)
  {registers : Registers} {bound : Nat} {s : Values} {e e' : Emitter ControlFlowBuilder}
  {start stop : Nat} {values values' : List Value}
  {returned : Bool}

variable {f a} in
lemma Inside.length (h : Inside l a values registers bound s) (harrives : Arrives f l a) :
    s.words.length = f.nodes.length := h.keeps.length.trans harrives.length

/-- A range that returns is a part of the graph that returns. -/
lemma returnsPart_of_range {known : Nat → Prop} {last : Nat} {e₁ : Emitter ControlFlowBuilder}
    {kept scope : Nat → Prop}
    (hfollows : Follows (f.code host) p kept ⟨start, known, values, e.builder⟩
      ⟨last, scope, values', e₁.builder⟩)
    (hreturns : Returns p ⟨last, scope, values', e₁.builder⟩ e'.builder) :
    ReturnsPart f host p known start values e.builder e'.builder where
  ends := ⟨e₁.builder, _, hfollows.grows, .ret hreturns.recorded⟩
  runs := by
    intro hpart s m registers hlength hholds
    have hends := Ends.ret hreturns.recorded
    have hpart₁ := (ControlFlowFunction.partOf_setTerminator hends.set).trans hpart
    refine hfollows.runs hpart₁ s m registers hlength hholds fun s' registers' _ _ _ hholds' => ?_
    exact ControlFlowFunction.Yields.ret hreturns.recorded hpart (hreturns.agrees hholds' m)

section body

variable (harrives : Arrives f l a) (hreserves : p.Reserves l.preparationPc l.loopPc l.stateBase)
  (hloop : l.loopPc < p.sizecode) (hstart : l.preparationPc + 1 ≤ start) (hle : start ≤ stop)
  (hstop : stop ≤ l.loopPc)
include harrives hreserves hloop hstart hle hstop

omit harrives hloop hle in
lemma scope_body : Scope p start stop fun _ => l.Known :=
  ⟨fun pc hpc hlt r hr => hreserves.1 pc (by omega) (by omega) r hr, fun _ _ _ _ _ hr => .inr hr⟩

/-- A translated body does not return and passes its registers on. -/
lemma passesPart_of_translate
    (h : translate p l.bodyRules start stop values e = .ok (values', returned) e') :
    returned = false ∧ PassesPart f host p l a start stop values values' e.builder e'.builder := by
  have hscope := scope_body hreserves hstart hstop
  have hstraight := (straight_of_translate hle h).1
  rcases follows_range (f.code host) (fun r => l.stateBase ≤ r ∧ r ≤ l.stateBase + 2) hscope
    (by omega) (fun r hr => ⟨l.stateBase, rfl, hr⟩) le_rfl hle (by omega) h with
    ⟨hreturned, hfollows⟩ | ⟨-, hallow, -⟩
  · refine ⟨hreturned, hfollows.grows, fun r hr => hstraight.state hr, ?_⟩
    intro hpart s m registers hinside hnext
    refine hfollows.runs hpart s m registers (hinside.length harrives) hinside.holds.known
      fun s' registers' _ hkeeps hkept hholds => ?_
    have hsize := hfollows.grows.size_le
    have hlimit := hstraight.state (r := l.stateBase + 1) (by omega)
    exact hnext s' registers' ⟨hinside.le.trans hsize, hinside.keeps.trans hkeeps hinside.le,
      hinside.holds.of_known hkeeps hsize hholds hlimit⟩ hkept hkeeps
  · cases hallow

omit harrives in
/-- The action of a condition that returns. -/
lemma returnsPart_of_action (h : translate p { l.bodyRules with allowReturn := true } start stop
      values e = .ok (values', true) e') :
    ReturnsPart f host p l.Known start values e.builder e'.builder := by
  have hscope := scope_body hreserves hstart hstop
  rcases follows_range (f.code host) (fun _ => False) hscope (by omega) (fun _ => False.elim) le_rfl
    hle (by omega) h with ⟨hreturned, -⟩ | ⟨-, -, last, e₁, hfollows, hreturns⟩
  · cases hreturned
  · exact returnsPart_of_range f host hfollows hreturns

end body

/-- The code behind a loop. -/
lemma returnsPart_of_exit (hreserves : p.Reserves l.preparationPc l.loopPc l.stateBase)
    (hloop : l.loopPc < p.sizecode)
    (h : translate p {} (l.loopPc + 1) p.sizecode values e = .ok (values', true) e') :
    ReturnsPart f host p l.Known (l.loopPc + 1) values e.builder e'.builder := by
  have hscope : Scope p (l.loopPc + 1) p.sizecode (KnownBehind p l) := by
    refine ⟨fun pc hpc hlt r hr => ?_, fun pc hpc hwrites hfallback r hr => ?_⟩
    · by_cases hknown : l.Known r
      · exact .inl hknown
      · obtain ⟨earlier, hearlier, hbehind, hmay⟩ := hreserves.2 pc hlt (by omega) r hr
          (by simp only [LoopSite.Known] at hknown; omega)
        exact .inr ⟨earlier, hearlier, hbehind, hmay⟩
    · rcases hr with hknown | ⟨earlier, hearlier, hbehind, hmay⟩
      · exact .inr (.inl hknown)
      · rcases lt_trichotomy earlier pc with hbefore | rfl | hafter
        · exact .inr (.inr ⟨earlier, hbefore, hbehind, hmay⟩)
        · left
          simp only [Instruction.mayWrite] at hmay
          rcases hopcode : (p.fetch earlier).opcode
          all_goals simp only [hopcode, OpCode.writesDestination] at hmay hwrites
          all_goals first | exact beq_iff_eq.mp hmay | cases hwrites
        · have hwidth := (p.fetch pc).width_eq
          obtain rfl : earlier = pc + 1 := by omega
          have hcalls := hfallback (by omega)
          simp only [Instruction.mayWrite] at hmay
          rcases hopcode : (p.fetch (pc + 1)).opcode
          all_goals simp [hopcode, OpCode.callsMetamethod] at hmay hcalls
  have hstart : ∀ r, KnownBehind p l (l.loopPc + 1) r ↔ l.Known r := by
    intro r
    refine ⟨fun hr => hr.resolve_right ?_, .inl⟩
    rintro ⟨earlier, hearlier, hbehind, -⟩
    omega
  rcases follows_range (f.code host) (fun _ => False) hscope le_rfl (fun _ => False.elim) le_rfl
    (by omega) (by omega) h with ⟨hreturned, -⟩ | ⟨-, -, last, e₁, hfollows, hreturns⟩
  · cases hreturned
  · obtain ⟨hends, hruns⟩ := returnsPart_of_range f host hfollows hreturns
    exact ⟨hends, fun hpart s m registers hlength hholds => hruns hpart s m registers hlength
      (hholds.mono (fun r hr => (hstart r).mp hr) (fun _ _ => rfl) (.refl _ s) le_rfl)⟩

end parts

end UniJit.Lua
