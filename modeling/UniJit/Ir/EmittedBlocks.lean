import UniJit.Ir.Emission

/-!
# Running the blocks of a graph from where they are emitted

The rules of `Code` stop at the end of a block. Here are those that lead on: `YieldsAt` speaks
about a run from the start of a block, `Yields.jump` and `Yields.branch` follow the edges that a
builder has just made, and `Yields.start` enters a block that has nothing but its parameters yet.
The parameters of a created block are consecutive values (`HasParameters`), so an edge changes
those and leaves the rest as it is (`followEdge_parameter`, `followEdge_of_outside`).
-/

namespace UniJit.Ir

open UniJit.Lib UniJit.Runtime

namespace Values

variable {s : Values} {first : Nat} {arguments : List Value}

/-- Words passed along an edge: the first `n` of the values from `first` on are assigned. -/
def pass (s : Values) (first : Nat) (arguments : List Value) (n : Nat) : Values :=
  (List.range n).foldl
    (fun s' index => s'.setWord (first + index) (s.word (arguments.getD index .invalid))) s

/-- Passing arguments keeps the size of the array. -/
@[simp] lemma length_pass {n : Nat} :
    (s.pass first arguments n).words.length = s.words.length := by
  induction n with
  | zero => rfl
  | succ n ih =>
      rw [pass, List.range_succ, List.foldl_append]
      simpa [pass] using ih

lemma pass_succ {n : Nat} : s.pass first arguments (n + 1) =
    (s.pass first arguments n).setWord (first + n) (s.word (arguments.getD n .invalid)) := by
  simp [pass, List.range_succ]

/-- Values outside the parameters are as they were. -/
lemma word_pass_of_outside {n : Nat} {v : Value} (h : v.index < first ∨ first + n ≤ v.index) :
    (s.pass first arguments n).word v = s.word v := by
  induction n with
  | zero => rfl
  | succ n ih =>
      rw [pass_succ, word_setWord_of_ne (by omega)]
      exact ih (by omega)

/-- A parameter receives the argument at its index. -/
lemma word_pass {n index : Nat} (hindex : index < n) {v : Value} (hv : v.index = first + index)
    (hlt : first + n ≤ s.words.length) :
    (s.pass first arguments n).word v = s.word (arguments.getD index .invalid) := by
  induction n with
  | zero => omega
  | succ n ih =>
      rw [pass_succ]
      by_cases heq : index = n
      · subst heq
        rw [word_setWord_self hv (by rw [length_pass]; omega)]
      · rw [word_setWord_of_ne (by omega)]
        exact ih (by omega) (by omega)

end Values

namespace ControlFlowFunction

variable {f : ControlFlowFunction} {host : Host} {b b' : ControlFlowBuilder} {s : Values}
  {m : Machine} {post : Post}

/-- A run from the start of a block ends as `post` says, if the budget is large enough. -/
def YieldsAt (f : ControlFlowFunction) (host : Host) (block : Block) (s : Values) (m : Machine)
    (post : Post) : Prop :=
  ∃ enough, ∀ budget, enough ≤ budget → post (f.executeBlocks host budget block s m)

/-- A run from the point where a builder stands. -/
abbrev Yields (f : ControlFlowFunction) (host : Host) (b : ControlFlowBuilder) (s : Values)
    (m : Machine) (post : Post) : Prop :=
  (f.code host).Yields b s m post

/-- The start of a block of which nothing but the parameters was emitted. -/
lemma Yields.start (hvalid : b.function.validBlock b.insertionBlock) (hpart : b.function.PartOf f)
    (hfresh : b.current.instructions.length = b.current.parameters.length)
    (h : f.Yields host b s m post) : f.YieldsAt host b.insertionBlock s m post := by
  obtain ⟨block, hblock, hparameters, -, -⟩ :=
    hpart.block (ControlFlowBuilder.getElem?_current hvalid)
  obtain ⟨enough, hpost⟩ := h
  refine ⟨enough + 1, fun budget hbudget => ?_⟩
  obtain ⟨budget, rfl⟩ : ∃ k, budget = k + 1 := ⟨budget - 1, by omega⟩
  have hresume := hpost budget (by omega)
  rw [resume, hfresh] at hresume
  rw [executeBlocks_succ]
  simpa only [List.getD, hblock, Option.getD_some, hparameters] using hresume

/-! ## Terminators -/

/-- A terminator is set exactly on an open valid block, and nothing else changes. -/
lemma setTerminator_eq_ok {terminator : ControlTerminator} :
    b.setTerminator terminator = .ok b' ↔ b.function.validBlock b.insertionBlock ∧
      b.current.terminator = .none ∧
      b' = { b with function := { b.function with
        blocks := b.function.blocks.set b.insertionBlock.index
          { b.current with terminator := terminator } } } := by
  simp only [ControlFlowBuilder.setTerminator, require_bind_eq_ok, pure_eq_ok]

/-- Ending a block leaves what was there in place. -/
lemma partOf_setTerminator {terminator : ControlTerminator}
    (h : b.setTerminator terminator = .ok b') : b.function.PartOf b'.function := by
  obtain ⟨hvalid, hopen, rfl⟩ := setTerminator_eq_ok.mp h
  simpa using ControlFlowBuilder.partOf_set [] [] { b.current with terminator := terminator }
    hvalid hopen rfl List.prefix_rfl

/-- The run at a terminator. -/
lemma resume_setTerminator {terminator : ControlTerminator} (hne : terminator ≠ .none)
    (h : b.setTerminator terminator = .ok b') (hpart : b'.function.PartOf f) (budget : Nat)
    (s : Values) : f.resume host b budget s = f.finish host budget terminator s := by
  obtain ⟨hvalid, hopen, rfl⟩ := setTerminator_eq_ok.mp h
  have hset : (b.function.blocks.set b.insertionBlock.index
      { b.current with terminator := terminator })[b.insertionBlock.index]? =
        some { b.current with terminator := terminator } := by
    simp [hvalid.2]
  obtain ⟨block, hblock, -, -, hsealed⟩ := hpart.block hset
  obtain rfl := hsealed hne
  simp only [resume, List.getD, hblock, Option.getD_some, List.drop_length, executeInstructions]
  rfl

/-- What a successful return has checked and set. -/
lemma setReturn_eq_ok {v : Value} (h : b.setReturn v = .ok b') :
    b.function.validValue v ∧ b.setTerminator (.ret v) = .ok b' := by
  simp only [ControlFlowBuilder.setReturn, require_bind_eq_ok] at h
  exact ⟨h.1, h.2.2⟩

/-- What a successful jump has checked and set. -/
lemma jump_eq_ok {target : Block} {arguments : List Value}
    (h : b.jump target arguments = .ok b') : b.validateEdge target arguments = .ok () ∧
      b.setTerminator (.jump ⟨target, arguments⟩) = .ok b' := by
  simp only [ControlFlowBuilder.jump, bind_eq_ok] at h
  obtain ⟨⟨⟩, hedge, hset⟩ := h
  exact ⟨hedge, hset⟩

/-- What a successful branch has checked and set. -/
lemma branch_eq_ok {condition : Value} {trueTarget falseTarget : Block}
    {trueArguments falseArguments : List Value}
    (h : b.branch condition trueTarget trueArguments falseTarget falseArguments = .ok b') :
    b.function.validValue condition ∧ b.validateEdge trueTarget trueArguments = .ok () ∧
      b.validateEdge falseTarget falseArguments = .ok () ∧
      b.setTerminator (.branch condition ⟨trueTarget, trueArguments⟩
        ⟨falseTarget, falseArguments⟩) = .ok b' := by
  rw [ControlFlowBuilder.branch, require_bind_eq_ok] at h
  obtain ⟨hvalid, h⟩ := h
  simp only [bind_eq_ok] at h
  obtain ⟨⟨⟩, htrue, ⟨⟩, hfalse, hset⟩ := h
  exact ⟨hvalid, htrue, hfalse, hset⟩

/-- A block that ends with a return yields the returned word. -/
lemma Yields.ret {v : Value} (h : b.setReturn v = .ok b') (hpart : b'.function.PartOf f)
    (hpost : post (.ok (s.word v) m)) : f.Yields host b s m post := by
  obtain ⟨-, hset⟩ := setReturn_eq_ok h
  refine ⟨0, fun budget _ => ?_⟩
  rw [resume_setTerminator (by simp) hset hpart]
  exact hpost

/-- A block that ends with a jump yields what its target yields. -/
lemma Yields.jump {target : Block} {arguments : List Value}
    (h : b.jump target arguments = .ok b') (hpart : b'.function.PartOf f)
    (hyields : f.YieldsAt host target (f.followEdge ⟨target, arguments⟩ s) m post) :
    f.Yields host b s m post := by
  obtain ⟨-, hset⟩ := jump_eq_ok h
  obtain ⟨enough, hpost⟩ := hyields
  refine ⟨enough, fun budget hbudget => ?_⟩
  rw [resume_setTerminator (by simp) hset hpart]
  exact hpost budget hbudget

/-- A block that ends with a branch yields what the taken edge yields. -/
lemma Yields.branch {condition : Value} {trueTarget falseTarget : Block}
    {trueArguments falseArguments : List Value}
    (h : b.branch condition trueTarget trueArguments falseTarget falseArguments = .ok b')
    (hpart : b'.function.PartOf f)
    (htrue : s.word condition ≠ 0 →
      f.YieldsAt host trueTarget (f.followEdge ⟨trueTarget, trueArguments⟩ s) m post)
    (hfalse : s.word condition = 0 →
      f.YieldsAt host falseTarget (f.followEdge ⟨falseTarget, falseArguments⟩ s) m post) :
    f.Yields host b s m post := by
  obtain ⟨-, -, -, hset⟩ := branch_eq_ok h
  by_cases hcondition : s.word condition = 0
  · obtain ⟨enough, hpost⟩ := hfalse hcondition
    refine ⟨enough, fun budget hbudget => ?_⟩
    rw [resume_setTerminator (by simp) hset hpart]
    simp only [finish, hcondition, ne_eq, not_true_eq_false, if_false]
    exact hpost budget hbudget
  · obtain ⟨enough, hpost⟩ := htrue hcondition
    refine ⟨enough, fun budget hbudget => ?_⟩
    rw [resume_setTerminator (by simp) hset hpart]
    simp only [finish, ne_eq, hcondition, not_false_eq_true, if_true]
    exact hpost budget hbudget

/-! ## Calls and safepoints -/

/-- Code that begins with a node yields what the rest yields after it. -/
lemma Yields.appendNode {n : ControlNode} {arguments : List Value} {s' : Values} {m' : Machine}
    (haccepts : b.accepts) (hpart : (b.appendNode n arguments).2.function.PartOf f)
    (hrun : f.executeInstruction host (.ofIndex b.function.nodes.length) s m = .ok s' m')
    (hyields : f.Yields host (b.appendNode n arguments).2 s' m' post) :
    f.Yields host b s m post := by
  obtain ⟨enough, hpost⟩ := hyields
  refine ⟨enough, fun budget hbudget => ?_⟩
  rw [ControlFlowBuilder.resume_appendNode haccepts hpart, run_bind_of_ok hrun]
  exact hpost budget hbudget

/-- A node that was not refused. -/
lemma appendNode_eq_of_valid {n : ControlNode} {arguments : List Value} {v : Value}
    (h : b.appendNode n arguments = (v, b')) (hvalid : v.valid) :
    b.accepts ∧ v = .ofIndex b.function.nodes.length ∧ b' = (b.appendNode n arguments).2 := by
  by_cases haccepts : b.accepts
  · rw [ControlFlowBuilder.appendNode_of_accepts haccepts] at h ⊢
    exact ⟨haccepts, (congrArg Prod.fst h).symm, (congrArg Prod.snd h).symm⟩
  · rw [ControlFlowBuilder.appendNode, if_neg haccepts] at h
    obtain rfl : Value.invalid = v := congrArg Prod.fst h
    exact absurd hvalid not_valid_invalid

/-- The arguments of a call that was appended. -/
lemma helperArguments_appendNode {arguments : List Value} {n : ControlNode}
    (hbegin : n.argumentBegin = BitVec.ofNat 32 b.function.callArguments.length)
    (hcount : n.argumentCount = BitVec.ofNat 32 arguments.length)
    (hroom : arguments.length + b.function.callArguments.length ≤ kInvalidIndex.toNat)
    (hbegins : b.function.callArguments ++ arguments <+: f.callArguments) :
    f.helperArguments n s = arguments.map s.word := by
  have hmax : kInvalidIndex.toNat = 2 ^ 32 - 1 := by decide
  have hbegin' : n.argumentBegin.toNat = b.function.callArguments.length := by
    rw [hbegin, BitVec.toNat_ofNat]
    omega
  have hcount' : n.argumentCount.toNat = arguments.length := by
    rw [hcount, BitVec.toNat_ofNat]
    omega
  rw [helperArguments, hbegin', hcount']
  apply List.ext_getElem (by simp)
  intro i hi _
  have hlt : i < arguments.length := by simpa using hi
  have hget : f.callArguments[b.function.callArguments.length + i]? = some arguments[i] := by
    apply getElem?_of_prefix hbegins
    simp [hlt]
  simp [List.getD, hget]

/-- Code that begins with a helper call yields what the rest yields for the helper's answer. -/
lemma Yields.call {helper : Word} {arguments : List Value} {v : Value}
    (h : b.call helper arguments = (v, b')) (hvalid : v.valid) (hpart : b'.function.PartOf f)
    (hyields : ∀ m', f.Yields host b'
      (s.setWord b.function.nodes.length (host.helper helper (arguments.map s.word))) m' post) :
    f.Yields host b s m post := by
  rw [ControlFlowBuilder.call] at h
  split_ifs at h with hroom
  · obtain rfl : Value.invalid = v := congrArg Prod.fst h
    exact absurd hvalid not_valid_invalid
  · obtain ⟨haccepts, -, rfl⟩ := appendNode_eq_of_valid h hvalid
    have hn := ControlFlowBuilder.getD_of_partOf haccepts hpart
    have hbegins := hpart.callArguments
    rw [ControlFlowBuilder.appendNode_of_accepts haccepts] at hbegins
    have hrun : ∃ m', f.executeInstruction host (.ofIndex b.function.nodes.length) s m =
        .ok (s.setWord b.function.nodes.length (host.helper helper (arguments.map s.word))) m' := by
      simp only [executeInstruction, hn]
      rw [helperArguments_appendNode rfl rfl (by omega) hbegins, Value.index_ofIndex haccepts.2.2]
      exact ⟨_, rfl⟩
    obtain ⟨m', hrun⟩ := hrun
    exact Yields.appendNode haccepts hpart hrun (hyields m')

/-- On a host that requests no exit a safepoint gives 0 and the run goes on. -/
lemma executeInstruction_safepoint (hquiet : ∀ n, host.exitPollRequested n = false) {v : Value}
    {immediate : Word} (hn : f.nodes.getD v.index { opcode := .parameter } =
      { opcode := .op .safepoint, immediate := immediate }) (s : Values) (m : Machine) :
    ∃ m', f.executeInstruction host v s m = .ok (s.setWord v.index 0) m' := by
  simp only [executeInstruction, hn, ControlOpcode.op.injEq, reduceCtorEq, or_self, ↓reduceIte]
  rw [get_bind]
  cases hcontext : m.context with
  | none => exact ⟨m, rfl⟩
  | some context =>
      let polled := { m.updateContext .recordSafepointPoll with polls := m.polls + 1 }
      refine ⟨polled, ?_⟩
      show (if host.exitPollRequested polled.polls = true then _ else _ : Exec Values) polled = _
      rw [hquiet]
      rfl

/-- A safepoint at which no interrupt is requested. -/
lemma Yields.safepoint {site : Nat} {v : Value} (hquiet : ∀ n, host.exitPollRequested n = false)
    (h : b.safepoint site = (v, b')) (hvalid : v.valid) (hpart : b'.function.PartOf f)
    (hyields : ∀ m', f.Yields host b' (s.setWord b.function.nodes.length 0) m' post) :
    f.Yields host b s m post := by
  rw [ControlFlowBuilder.safepoint] at h
  split_ifs at h with hsite
  · obtain rfl : Value.invalid = v := congrArg Prod.fst h
    exact absurd hvalid not_valid_invalid
  · obtain ⟨haccepts, -, rfl⟩ := appendNode_eq_of_valid h hvalid
    have hn := ControlFlowBuilder.getD_of_partOf haccepts hpart
    have hrun := executeInstruction_safepoint hquiet hn s m
    rw [Value.index_ofIndex haccepts.2.2] at hrun
    obtain ⟨m', hrun⟩ := hrun
    exact Yields.appendNode haccepts hpart hrun (hyields m')

/-! ## Edges -/

/-- The parameters of a block are `count` scalars from the value `first` on. -/
structure HasParameters (f : ControlFlowFunction) (block : Block) (first count : Nat) : Prop where
  parameters : (f.blocks.getD block.index {}).parameters =
    (List.range count).map fun index => .ofIndex (first + index)
  bound : first + count ≤ kInvalidIndex.toNat
  node : ∀ index < count, ∃ n, f.nodes[first + index]? = some n ∧ isVectorValueType n.type = false

section edges

variable {target : Block} {first count : Nat} {arguments : List Value}

/-- The parameters of a block are consecutive values. -/
lemma HasParameters.getD (h : f.HasParameters target first count) {index : Nat}
    (hindex : index < count) :
    (f.blocks.getD target.index {}).parameters.getD index .invalid = .ofIndex (first + index) := by
  rw [h.parameters]
  simp [List.getD, hindex]

/-- The index of a parameter. -/
lemma HasParameters.index (h : f.HasParameters target first count) {index : Nat}
    (hindex : index < count) : (Value.ofIndex (first + index)).index = first + index :=
  Value.index_ofIndex (by have := h.bound; omega)

/-- The parameters are nodes of the graph. -/
lemma HasParameters.le_length (h : f.HasParameters target first count) (hcount : 0 < count) :
    first + count ≤ f.nodes.length := by
  obtain ⟨n, hn, -⟩ := h.node (count - 1) (by omega)
  have := (List.getElem?_eq_some_iff.mp hn).1
  omega

/-- The parameters are scalars. -/
lemma HasParameters.isScalar (h : f.HasParameters target first count) {index : Nat}
    (hindex : index < count) : isVectorValueType (f.valueType (.ofIndex (first + index))) = false := by
  obtain ⟨n, hn, htype⟩ := h.node index hindex
  have hbound := h.bound
  rw [ControlFlowFunction.valueType, if_pos (Value.valid_ofIndex (by omega)), h.index hindex, hn]
  simpa using htype

/-- Following an edge with scalar arguments passes them to the parameters at once. -/
lemma followEdge_eq (h : f.HasParameters target first count) (hlength : arguments.length = count)
    (hscalar : ∀ a ∈ arguments, isVectorValueType (f.valueType a) = false) (s : Values) :
    f.followEdge ⟨target, arguments⟩ s = s.pass first arguments count := by
  have hmap : (arguments.map fun argument =>
      if isVectorValueType (f.valueType argument) then 0 else s.word argument) =
        arguments.map s.word := by
    apply List.map_congr_left
    intro a ha
    rw [hscalar a ha]
    rfl
  simp only [followEdge, Values.pass, hmap, List.length_map, hlength]
  apply List.foldl_ext
  intro s' index hindex
  have hlt : index < count := List.mem_range.mp hindex
  simp only [h.getD hlt, h.isScalar hlt, h.index hlt]
  rw [if_neg (by decide)]
  simp [List.getD, hlength ▸ hlt]

end edges

end ControlFlowFunction

end UniJit.Ir
