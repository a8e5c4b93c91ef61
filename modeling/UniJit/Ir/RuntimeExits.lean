import UniJit.Lib.Runs
import UniJit.Lib.Updates
import UniJit.Ir.EmittedBlocks

/-!
# Where a graph is left

A run of a graph stops with a runtime exit at a guard, and its status names the site of the guard.
The other operations on scalars, helper calls and safepoints have no such exit, so the sites of a
graph of these are the sites of its guards (`executeBlocks_exits`). Blocks may be left out of the
account if no edge leads to them from the others.
-/

namespace UniJit.Ir

open UniJit.Lib UniJit.Runtime

/-- An operation that never stops a run with a runtime exit. -/
def ControlOpcode.isQuiet : ControlOpcode → Bool
  | .parameter | .blockParameter => true
  | .op .constant | .op (.binary _) | .op (.unary _) | .op .call | .op .safepoint => true
  | _ => false

/-- A node stops a run with a runtime exit at one of the sites only. -/
def ControlNode.ExitsAt (sites : Nat → Prop) (n : ControlNode) : Prop :=
  n.opcode.isQuiet = true ∨
    (n.opcode = .op .guardWordNonzero ∨ n.opcode = .op .guardFloatNonzero) ∧
      sites n.immediate.toNat

/-- A status is no runtime exit, or one at one of the sites. -/
def ExitStatus (sites : Nat → Prop) (status : Status) : Prop :=
  status.code = .runtimeExit → sites status.location

/-- The targets of a terminator. -/
def ControlTerminator.targets : ControlTerminator → List Block
  | .jump edge => [edge.target]
  | .branch _ trueEdge falseEdge => [trueEdge.target, falseEdge.target]
  | _ => []

section runs

variable {sites : Nat → Prop} {α β : Type}

/-- A computation has runtime exits at the sites only. -/
def ExitsAt (sites : Nat → Prop) (x : Exec α) : Prop :=
  Ensures x (ExitStatus sites) fun _ => True

lemma ExitsAt.pure (a : α) : ExitsAt sites (Pure.pure a : Exec α) := Ensures.pure trivial

lemma ExitsAt.bind {x : Exec α} {k : α → Exec β} (hx : ExitsAt sites x)
    (hk : ∀ a, ExitsAt sites (k a)) : ExitsAt sites (x >>= k) :=
  Ensures.bind hx fun a _ => hk a

lemma exitsAt_modify (change : Machine → Machine) : ExitsAt sites (modify change : Exec PUnit) :=
  fun _ => trivial

lemma exitsAt_get : ExitsAt sites (get : Exec Machine) := fun _ => trivial

lemma exitsAt_throw {status : Status} (h : ExitStatus sites status) :
    ExitsAt sites (throw status : Exec α) := fun _ => h

/-- A recorded stop exits at its site when it is a runtime exit. -/
lemma exitsAt_stopAt {reason : ExitReason} {code : StatusCode} {message : String} {site : Nat}
    {value : Word} (h : code = .runtimeExit → sites site) :
    ExitsAt sites (stopAt reason code message site value : Exec α) :=
  .bind (exitsAt_modify _) fun _ => exitsAt_throw h

end runs

namespace ControlFlowFunction

variable {f : ControlFlowFunction} {host : Host} {sites : Nat → Prop}

/-- A helper call has no exit of its own. -/
lemma exitsAt_callHelper (helper : RuntimeHelper) (arguments : List Word) :
    ExitsAt sites (callHelper host helper arguments) :=
  .bind (exitsAt_modify _) fun _ => .pure _

/-- An instruction exits where its node may. -/
lemma executeInstruction_exits {v : Value}
    (h : (f.nodes.getD v.index { opcode := .parameter }).ExitsAt sites) (s : Values) :
    ExitsAt sites (f.executeInstruction host v s) := by
  rw [executeInstruction]
  generalize f.nodes.getD v.index { opcode := .parameter } = n at h ⊢
  dsimp only
  rcases h with hquiet | ⟨hguard, hsite⟩
  · rcases hopcode : n.opcode with - | - | o
    · exact .pure _
    · exact .pure _
    · rw [hopcode] at hquiet
      cases o with
      | constant => exact .pure _
      | binary o =>
          cases o
          all_goals exact .pure _
      | unary o =>
          cases o
          all_goals exact .pure _
      | call => exact .bind (exitsAt_callHelper _ _) fun _ => .pure _
      | safepoint =>
          refine .bind exitsAt_get fun m => ?_
          split_ifs
          · exact .pure _
          · refine .bind (exitsAt_modify _) fun _ => .bind exitsAt_get fun m' => ?_
            split_ifs
            · exact exitsAt_stopAt fun h => by cases h
            · exact .pure _
      | _ => cases hquiet
  · rcases hguard with hopcode | hopcode
    all_goals
      simp only [hopcode, ControlOpcode.op.injEq, reduceCtorEq, or_false, or_true, ↓reduceIte]
      split_ifs
      · exact exitsAt_stopAt fun _ => hsite
      · exact .pure _

/-- Instructions exit where their nodes may. -/
lemma executeInstructions_exits {vs : List Value}
    (h : ∀ v ∈ vs, (f.nodes.getD v.index { opcode := .parameter }).ExitsAt sites) (s : Values) :
    ExitsAt sites (f.executeInstructions host vs s) := by
  induction vs generalizing s with
  | nil => exact .pure _
  | cons v vs ih =>
      rw [executeInstructions]
      exact .bind (executeInstruction_exits (h v List.mem_cons_self) s) fun s' =>
        ih (fun v' hv' => h v' (List.mem_cons_of_mem _ hv')) s'

/-- A set of blocks that is closed under the edges, with exits at the sites only. -/
structure ExitsWithin (f : ControlFlowFunction) (sites : Nat → Prop) (inside : Block → Prop) :
    Prop where
  invalid : inside .invalid
  instructions : ∀ block, inside block →
    ∀ v ∈ (f.blocks.getD block.index {}).instructions.drop
        (f.blocks.getD block.index {}).parameters.length,
      (f.nodes.getD v.index { opcode := .parameter }).ExitsAt sites
  targets : ∀ block, inside block →
    ∀ target ∈ (f.blocks.getD block.index {}).terminator.targets, inside target

section blocks

variable {inside : Block → Prop}

/-- Where a block goes on. -/
lemma finish_exits {budget : Nat} {terminator : ControlTerminator} (hinvalid : inside .invalid)
    (htargets : ∀ target ∈ terminator.targets, inside target)
    (hblocks : ∀ block s, inside block → ExitsAt sites (f.executeBlocks host budget block s))
    (s : Values) : ExitsAt sites (f.finish host budget terminator s) := by
  rcases terminator with - | v | edge | ⟨condition, trueEdge, falseEdge⟩
  · exact hblocks _ _ hinvalid
  · exact .pure _
  · exact hblocks _ _ (htargets _ (by simp [ControlTerminator.targets]))
  · refine hblocks _ _ (htargets _ ?_)
    split_ifs <;> simp [ControlTerminator.targets]

/-- A run within such a set has exits at the sites only. -/
lemma executeBlocks_exits (h : f.ExitsWithin sites inside) {block : Block} (hblock : inside block)
    (budget : Nat) (s : Values) : ExitsAt sites (f.executeBlocks host budget block s) := by
  induction budget generalizing block s with
  | zero => exact exitsAt_throw fun heq => by cases heq
  | succ budget ih =>
      rw [executeBlocks_succ]
      exact .bind (executeInstructions_exits (h.instructions block hblock) s) fun s' =>
        finish_exits h.invalid (h.targets block hblock) (fun block s'' hinside => ih hinside s'') s'

end blocks

end ControlFlowFunction

/-! ## Code that is built -/

/-- A property of a builder that survives its operations on scalars, as long as their exits are at
the sites only. -/
structure ScalarKept {B : Type} [ScalarBuilder B] (sites : Nat → Prop) (I : B → Prop) : Prop where
  append : ∀ b (o : Operation) type lhs rhs immediate,
    ControlNode.ExitsAt sites
      { opcode := .op o, lhs := lhs, rhs := rhs, immediate := immediate, type := type } →
    I b → I (ScalarBuilder.append b o type lhs rhs immediate).2

namespace ScalarKept

variable {B : Type} [ScalarBuilder B] {sites : Nat → Prop} {I : B → Prop} {b : B}
  (h : ScalarKept sites I) (hb : I b)
include h hb

lemma constant (value : Word) : I (ScalarBuilder.constant b value).2 :=
  h.append _ _ _ _ _ _ (.inl rfl) hb

lemma float64Constant (bits : Word) : I (ScalarBuilder.float64Constant b bits).2 :=
  h.append _ _ _ _ _ _ (.inl rfl) hb

lemma binary (o : BinaryOpcode) (lhs rhs : Value) : I (ScalarBuilder.binary b o lhs rhs).2 :=
  h.append _ _ _ _ _ _ (.inl rfl) hb

lemma unary (o : UnaryOpcode) (v : Value) : I (ScalarBuilder.unary b o v).2 :=
  h.append _ _ _ _ _ _ (.inl rfl) hb

/-- A guard at an allowed site keeps the invariant. -/
lemma guard {o : Operation} (ho : o = .guardWordNonzero ∨ o = .guardFloatNonzero) (v : Value)
    {site : Nat} (hsite : sites site) : I (ScalarBuilder.guard b o v site).2 := by
  rw [ScalarBuilder.guard]
  split_ifs with hlarge
  · exact hb
  · apply h.append _ _ _ _ _ _ (.inr ⟨by simpa using ho, ?_⟩) hb
    have hword : (BitVec.ofNat 64 site).toNat = site := by
      rw [BitVec.toNat_ofNat]
      exact Nat.mod_eq_of_lt (by simp only [maximumWord] at hlarge; omega)
    rwa [hword]

end ScalarKept

namespace ControlFlowBuilder

/-- A property of a graph under construction that survives the calls of the builder, as long as the
nodes have their exits at the sites only. -/
structure Kept (sites : Nat → Prop) (I : ControlFlowBuilder → Prop) : Prop where
  appendNode : ∀ b n arguments, ControlNode.ExitsAt sites n → I b →
    I (b.appendNode n arguments).2
  createBlock : ∀ b types, I b → I (b.createBlock types).2
  setTerminator : ∀ b b' (terminator : ControlTerminator),
    (∀ target ∈ terminator.targets, target ≠ b.function.entryBlock) →
    b.setTerminator terminator = .ok b' → I b → I b'
  setInsertionBlock : ∀ b block, I b → I { b with insertionBlock := block }

section kept

variable {sites : Nat → Prop} {I : ControlFlowBuilder → Prop} {b b' : ControlFlowBuilder}

/-- A safepoint keeps the invariant. -/
lemma Kept.safepoint (h : Kept sites I) (hb : I b) (site : Nat) : I (b.safepoint site).2 := by
  rw [ControlFlowBuilder.safepoint]
  split_ifs
  · exact hb
  · exact h.appendNode _ _ _ (.inl rfl) hb

/-- A helper call keeps the invariant. -/
lemma Kept.call (h : Kept sites I) (hb : I b) (helper : Word) (arguments : List Value) :
    I (b.call helper arguments).2 := by
  rw [ControlFlowBuilder.call]
  split_ifs
  · exact hb
  · exact h.appendNode _ _ _ (.inl rfl) hb

lemma Kept.scalar (h : Kept sites I) : ScalarKept sites I where
  append := fun _ _ _ _ _ _ hn hb => h.appendNode _ _ _ hn hb

/-- An edge leads to a block that is not the entry. -/
lemma ne_entryBlock_of_validateEdge {target : Block} {arguments : List Value}
    (h : b.validateEdge target arguments = .ok ()) : target ≠ b.function.entryBlock := by
  rw [validateEdge, require_bind_eq_ok] at h
  exact h.1.2

/-- A return keeps the invariant. -/
lemma Kept.setReturn (h : Kept sites I) (hb : I b) {v : Value} (hrun : b.setReturn v = .ok b') :
    I b' :=
  h.setTerminator _ _ _ (by simp [ControlTerminator.targets])
    (ControlFlowFunction.setReturn_eq_ok hrun).2 hb

/-- A jump keeps the invariant. -/
lemma Kept.jump (h : Kept sites I) (hb : I b) {target : Block} {arguments : List Value}
    (hrun : b.jump target arguments = .ok b') : I b' := by
  obtain ⟨hedge, hset⟩ := ControlFlowFunction.jump_eq_ok hrun
  apply h.setTerminator _ _ _ _ hset hb
  simpa [ControlTerminator.targets] using ne_entryBlock_of_validateEdge hedge

/-- A branch keeps the invariant. -/
lemma Kept.branch (h : Kept sites I) (hb : I b) {condition : Value} {trueTarget falseTarget : Block}
    {trueArguments falseArguments : List Value}
    (hrun : b.branch condition trueTarget trueArguments falseTarget falseArguments = .ok b') :
    I b' := by
  obtain ⟨-, htrue, hfalse, hset⟩ := ControlFlowFunction.branch_eq_ok hrun
  apply h.setTerminator _ _ _ _ hset hb
  simpa [ControlTerminator.targets] using
    ⟨ne_entryBlock_of_validateEdge htrue, ne_entryBlock_of_validateEdge hfalse⟩

end kept

/-! ### Growth -/

/-- Creating a block leaves what was there in place. -/
lemma partOf_createBlock (b : ControlFlowBuilder) (types : List ValueType) :
    b.function.PartOf (b.createBlock types).2.function := by
  rw [createBlock]
  split_ifs
  · exact .refl _
  · refine ⟨rfl, rfl, rfl, List.prefix_append .., List.prefix_rfl, fun {k block} hk => ?_⟩
    have hlt := (List.getElem?_eq_some_iff.mp hk).1
    exact ⟨block, by rw [List.getElem?_append_left hlt]; exact hk, rfl, List.prefix_rfl,
      fun _ => rfl⟩

/-! ### Nodes -/

/-- The parameter nodes have the opcode they were made with. -/
lemma mem_parameterNodes {opcode : ControlOpcode} {first : Nat} {types : List ValueType}
    {n : ControlNode} (h : n ∈ parameterNodes opcode first types) : n.opcode = opcode := by
  rw [parameterNodes, List.mem_mapIdx] at h
  obtain ⟨i, hi, rfl⟩ := h
  rfl

/-- All nodes have their exits at the sites. -/
def NodesExitAt (sites : Nat → Prop) (b : ControlFlowBuilder) : Prop :=
  ∀ n ∈ b.function.nodes, ControlNode.ExitsAt sites n

/-- The parameters of a new builder do not exit. -/
lemma nodesExitAt_create (sites : Nat → Prop) (types : List ValueType) :
    NodesExitAt sites (create types) := by
  intro n hn
  have hopcode := mem_parameterNodes hn
  exact .inl (by rw [hopcode]; rfl)

/-- The builder keeps its exits at the allowed sites. -/
lemma kept_nodesExitAt (sites : Nat → Prop) : Kept sites (NodesExitAt sites) where
  appendNode := by
    intro b n arguments hn hb
    rw [appendNode]
    split_ifs
    · intro n' hn'
      rcases List.mem_append.mp hn' with hn' | hn'
      · exact hb n' hn'
      · obtain rfl := List.mem_singleton.mp hn'
        exact hn
    · exact hb
  createBlock := by
    intro b types hb
    rw [createBlock]
    split_ifs
    · exact hb
    · intro n' hn'
      rcases List.mem_append.mp hn' with hn' | hn'
      · exact hb n' hn'
      · have hopcode := mem_parameterNodes hn'
        exact .inl (by rw [hopcode]; rfl)
  setTerminator := by
    intro b b' terminator _ hset hb
    obtain ⟨-, -, rfl⟩ := ControlFlowFunction.setTerminator_eq_ok.mp hset
    exact hb
  setInsertionBlock := fun _ _ hb => hb

/-- The exits of a graph are those of its nodes. -/
lemma NodesExitAt.within {sites : Nat → Prop} {b : ControlFlowBuilder} (h : NodesExitAt sites b) :
    b.function.ExitsWithin sites fun _ => True where
  invalid := trivial
  instructions := by
    intro block _ v _
    rw [List.getD]
    rcases hn : b.function.nodes[v.index]? with - | n
    · exact .inl rfl
    · exact h n (List.mem_of_getElem? hn)
  targets := fun _ _ _ _ => trivial

/-! ### Behind a point of the entry -/

/-- A block has instructions from the value `first` on only, apart from its first `skip` ones, and
leads to other blocks than the entry. -/
structure QuietBlock (first skip : Nat) (entry : Block) (block : BasicBlock) : Prop where
  instructions : ∀ v ∈ block.instructions.drop skip, first ≤ v.index
  targets : ∀ target ∈ block.terminator.targets, target ≠ entry

/-- Behind the first `count` instructions of the entry block there are no exits: from the value
`first` on all nodes are quiet, and no edge leads to the entry. -/
structure QuietBehind (first count : Nat) (b : ControlFlowBuilder) : Prop where
  size : first ≤ b.function.nodes.length
  bound : first ≤ kInvalidIndex.toNat
  nodes : ∀ (i : Nat) (n : ControlNode), first ≤ i → b.function.nodes[i]? = some n →
    n.opcode.isQuiet = true
  blocks : ∀ (k : Nat) (block : BasicBlock), b.function.blocks[k]? = some block →
    QuietBlock first (if k = b.function.entryBlock.index then count else 0)
      b.function.entryBlock block

/-- Nodes that are appended keep the earlier ones quiet. -/
lemma quiet_of_append {first : Nat} {nodes appended : List ControlNode}
    (h : ∀ (i : Nat) (n : ControlNode), first ≤ i → nodes[i]? = some n → n.opcode.isQuiet = true)
    (happended : ∀ n ∈ appended, n.opcode.isQuiet = true) (i : Nat) (n : ControlNode)
    (hi : first ≤ i) (hn : (nodes ++ appended)[i]? = some n) : n.opcode.isQuiet = true := by
  by_cases hlt : i < nodes.length
  · rw [List.getElem?_append_left hlt] at hn
    exact h i n hi hn
  · rw [List.getElem?_append_right (not_lt.mp hlt)] at hn
    exact happended n (List.mem_of_getElem? hn)

/-- The parameters of a new block are new values. -/
lemma le_of_mem_parameterValues {first count : Nat} (h : first ≤ kInvalidIndex.toNat) {v : Value}
    (hv : v ∈ parameterValues first count) : first ≤ v.index := by
  obtain ⟨i, -, rfl⟩ := List.mem_map.mp hv
  split_ifs with hindex
  · rw [Value.index_ofIndex hindex]
    exact Nat.le_add_right _ _
  · exact h

/-- The builder keeps quiet behind the parameters when it emits no guard. -/
lemma kept_quietBehind (first count : Nat) :
    Kept (fun _ => False) (QuietBehind first count) where
  appendNode := by
    intro b n arguments hn hb
    have hquiet : n.opcode.isQuiet = true := hn.resolve_right fun h => h.2
    by_cases haccepts : b.accepts
    · rw [appendNode_of_accepts haccepts]
      refine ⟨?_, hb.bound, quiet_of_append hb.nodes (by simpa using hquiet), ?_⟩
      · have hsize := hb.size
        simp only [List.length_append]
        omega
      · intro k block hk
        rcases getElem?_set_cases hk with ⟨rfl, rfl⟩ | hk
        · have hcurrent := hb.blocks _ _ (getElem?_current haccepts.1)
          refine ⟨fun v hv => ?_, hcurrent.targets⟩
          rw [List.drop_append] at hv
          rcases List.mem_append.mp hv with hv | hv
          · exact hcurrent.instructions v hv
          · obtain rfl := List.mem_singleton.mp (List.mem_of_mem_drop hv)
            rw [Value.index_ofIndex haccepts.2.2]
            exact hb.size
        · exact hb.blocks k block hk
    · rw [appendNode, if_neg haccepts]
      exact hb
  createBlock := by
    intro b types hb
    rw [createBlock]
    split_ifs with hfull
    · exact hb
    · refine ⟨?_, hb.bound, quiet_of_append hb.nodes fun n hn => ?_, fun k block hk => ?_⟩
      · have hsize := hb.size
        simp only [List.length_append]
        omega
      · rw [mem_parameterNodes hn]
        rfl
      · by_cases hlt : k < b.function.blocks.length
        · rw [List.getElem?_append_left hlt] at hk
          exact hb.blocks k block hk
        · rw [List.getElem?_append_right (not_lt.mp hlt)] at hk
          obtain rfl := List.mem_singleton.mp (List.mem_of_getElem? hk)
          refine ⟨fun v hv => ?_, by simp [ControlTerminator.targets]⟩
          have hmem := List.mem_of_mem_take (List.mem_of_mem_drop hv)
          by_cases hroom : b.function.nodes.length ≤ kInvalidIndex.toNat
          · exact hb.size.trans (le_of_mem_parameterValues hroom hmem)
          · obtain ⟨i, -, rfl⟩ := List.mem_map.mp hmem
            rw [if_neg (by omega)]
            exact hb.bound
  setTerminator := by
    intro b b' terminator htargets hset hb
    obtain ⟨hvalid, -, rfl⟩ := ControlFlowFunction.setTerminator_eq_ok.mp hset
    refine ⟨hb.size, hb.bound, hb.nodes, fun k block hk => ?_⟩
    rcases getElem?_set_cases hk with ⟨rfl, rfl⟩ | hk
    · exact ⟨(hb.blocks _ _ (getElem?_current hvalid)).instructions, htargets⟩
    · exact hb.blocks k block hk
  setInsertionBlock := fun _ _ hb => ⟨hb.size, hb.bound, hb.nodes, hb.blocks⟩

section behind

variable {first count : Nat} {b : ControlFlowBuilder} (h : QuietBehind first count b)
include h

/-- A node behind the parameters does not exit. -/
lemma QuietBehind.node {v : Value} (hv : first ≤ v.index) :
    (b.function.nodes.getD v.index { opcode := .parameter }).ExitsAt fun _ => False := by
  rw [List.getD]
  rcases hn : b.function.nodes[v.index]? with - | n
  · exact .inl rfl
  · exact .inl (h.nodes _ n hv hn)

/-- Every block is quiet, also one that is not there. -/
lemma QuietBehind.block (block : Block) :
    QuietBlock first (if block.index = b.function.entryBlock.index then count else 0)
      b.function.entryBlock (b.function.blocks.getD block.index {}) := by
  rw [List.getD]
  rcases hblock : b.function.blocks[block.index]? with - | found
  · exact ⟨by simp, by simp [ControlTerminator.targets]⟩
  · exact h.blocks _ _ hblock

/-- No edge goes back to the entry block. -/
lemma QuietBehind.index_ne {block target : Block}
    (htarget : target ∈ (b.function.blocks.getD block.index {}).terminator.targets) :
    target.index ≠ b.function.entryBlock.index := by
  intro heq
  have hid : target.id = b.function.entryBlock.id := BitVec.eq_of_toNat_eq heq
  exact (h.block block).targets target htarget (congrArg Block.mk hid)

/-- The blocks other than the entry have no exits. -/
lemma QuietBehind.within (hentry : b.function.entryBlock.index ≠ Block.invalid.index) :
    b.function.ExitsWithin (fun _ => False) fun block =>
      block.index ≠ b.function.entryBlock.index where
  invalid := hentry.symm
  instructions := by
    intro block hblock v hv
    have hquiet := h.block block
    rw [if_neg hblock] at hquiet
    exact h.node (hquiet.instructions v (List.mem_of_mem_drop hv))
  targets := fun block _ target htarget => h.index_ne htarget

/-- Neither has the rest of the entry. -/
lemma QuietBehind.resume (hentry : b.function.entryBlock.index ≠ Block.invalid.index)
    {point : ControlFlowBuilder} (hpoint : point.insertionBlock = b.function.entryBlock)
    (hcount : point.current.instructions.length = count) (host : Host) (budget : Nat) (s : Values) :
    ExitsAt (fun _ => False) (b.function.resume host point budget s) := by
  have hquiet := h.block b.function.entryBlock
  rw [if_pos rfl] at hquiet
  rw [ControlFlowFunction.resume, hpoint, hcount]
  refine .bind (ControlFlowFunction.executeInstructions_exits
    (fun v hv => h.node (hquiet.instructions v hv)) s) fun s' => ?_
  exact ControlFlowFunction.finish_exits (h.within hentry).invalid
    (fun target htarget => h.index_ne htarget)
    (fun block s'' hblock => ControlFlowFunction.executeBlocks_exits (h.within hentry) hblock _ s'')
    s'

end behind

end ControlFlowBuilder

end UniJit.Ir
