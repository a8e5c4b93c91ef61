import UniJit.Ir.ControlFlowFacts
import UniJit.Ir.EmittedBlocks
import UniJit.Ir.EmittedValues
import UniJit.Ir.RuntimeExits
import UniJit.Ir.StraightRuns

/-!
# Blocks that are filled one by one

A translator creates the blocks of a graph first and fills them later, each at one stretch: it sets
the insertion point to a block, appends, and ends the block. Such a block has nothing but its
parameters when its turn comes, because everything that is open then does (`Clean`); so a run
enters it at the point where its filling begins (`Closing.filled`).

The parameters of a created block are consecutive values of the finished graph
(`hasParameters_of_createBlock`), and an edge that the builder has checked passes its arguments to
them (`passes_of_validateEdge`).
-/

namespace UniJit.Ir

open UniJit.Lib UniJit.Runtime

/-! ## Open blocks -/

namespace BasicBlock

/-- A block that is open has nothing but its parameters. -/
def Waits (block : BasicBlock) : Prop :=
  block.terminator = .none → (∀ v ∈ block.parameters, v.valid) →
    block.instructions.length = block.parameters.length

end BasicBlock

namespace ControlFlowFunction

/-- A block of a part is a block of the whole. -/
lemma PartOf.validBlock {g g' : ControlFlowFunction} (h : g.PartOf g') {block : Block}
    (hvalid : g.validBlock block) : g'.validBlock block := by
  obtain ⟨block', hblock', -⟩ := h.block (List.getElem?_eq_getElem hvalid.2)
  exact ⟨hvalid.1, (List.getElem?_eq_some_iff.mp hblock').1⟩

end ControlFlowFunction

namespace ControlFlowBuilder

variable {b b' b'' : ControlFlowBuilder}

/-- Nothing is half done. -/
def Clean (b : ControlFlowBuilder) : Prop :=
  ∀ (k : Nat) (block : BasicBlock), b.function.blocks[k]? = some block → block.Waits

/-- Nothing is half done but the block at the insertion point. -/
def Tidy (b : ControlFlowBuilder) : Prop :=
  ∀ (k : Nat) (block : BasicBlock), b.function.blocks[k]? = some block →
    k ≠ b.insertionBlock.index → block.Waits

/-- What a builder does while it fills a block. -/
structure InBlock (b b' : ControlFlowBuilder) : Prop where
  part : b.function.PartOf b'.function
  insertionBlock : b'.insertionBlock = b.insertionBlock
  tidy : b.Tidy → b'.Tidy

lemma InBlock.refl (b : ControlFlowBuilder) : InBlock b b := ⟨.refl _, rfl, id⟩

lemma InBlock.trans (h : InBlock b b') (h' : InBlock b' b'') : InBlock b b'' :=
  ⟨h.part.trans h'.part, h'.insertionBlock.trans h.insertionBlock, fun htidy => h'.tidy (h.tidy htidy)⟩

/-- Appending a node stays in the block. -/
lemma inBlock_appendNode {n : ControlNode} {arguments : List Value} :
    InBlock b (b.appendNode n arguments).2 := by
  refine ⟨partOf_appendNode, insertionBlock_appendNode, fun htidy k block hk hne => ?_⟩
  by_cases haccepts : b.accepts
  · rw [appendNode_of_accepts haccepts] at hk hne
    rw [List.getElem?_set_ne (Ne.symm hne)] at hk
    exact htidy k block hk hne
  · rw [appendNode, if_neg haccepts] at hk hne
    exact htidy k block hk hne

/-- Emitting scalar operations stays in the block. -/
lemma inBlock_of_grows (h : Code.Grows b b') : InBlock b b' := by
  induction h with
  | refl => exact .refl _
  | tail _ happend ih =>
      obtain ⟨o, type, lhs, rhs, immediate, rfl⟩ := happend
      exact ih.trans inBlock_appendNode

/-- Emitting a call stays in the block. -/
lemma inBlock_call {helper : Word} {arguments : List Value} :
    InBlock b (b.call helper arguments).2 := by
  rw [call]
  split_ifs
  · exact .refl _
  · exact inBlock_appendNode

/-- Emitting a safepoint stays in the block. -/
lemma inBlock_safepoint {site : Nat} : InBlock b (b.safepoint site).2 := by
  rw [safepoint]
  split_ifs
  · exact .refl _
  · exact inBlock_appendNode

/-- The nodes of parameters that are all within the range. -/
lemma length_parameterNodes (opcode : ControlOpcode) {first : Nat} {types : List ValueType}
    (h : ∀ v ∈ parameterValues first types.length, v.valid) :
    (parameterNodes opcode first types).length = types.length ∧
      (types ≠ [] → first + types.length ≤ kInvalidIndex.toNat) := by
  have hbound : types ≠ [] → first + types.length ≤ kInvalidIndex.toNat := by
    intro hne
    have hlength := List.length_pos_iff.mpr hne
    by_contra hlarge
    have hlast : (if first + (types.length - 1) < kInvalidIndex.toNat
        then Value.ofIndex (first + (types.length - 1)) else .invalid) ∈
          parameterValues first types.length :=
      List.mem_map.mpr ⟨types.length - 1, List.mem_range.mpr (by omega), rfl⟩
    rw [if_neg (by omega)] at hlast
    exact not_valid_invalid (h _ hlast)
  refine ⟨?_, hbound⟩
  rw [parameterNodes, List.length_mapIdx, List.length_take]
  by_cases hnil : types = []
  · simp [hnil]
  · have hle := hbound hnil
    omega

/-- A block that was just created holds its parameters only. -/
lemma waits_of_created {opcode : ControlOpcode} {first : Nat} {types : List ValueType} :
    BasicBlock.Waits { parameters := parameterValues first types.length
                       instructions := (parameterValues first types.length).take
                         (parameterNodes opcode first types).length } := by
  intro _ hvalid
  rw [List.length_take, (length_parameterNodes opcode hvalid).1]
  simp [parameterValues]

/-- Creating a block does not leave the one being filled. -/
lemma inBlock_createBlock {types : List ValueType} : InBlock b (b.createBlock types).2 := by
  refine ⟨partOf_createBlock b types, ?_, fun htidy k block hk hne => ?_⟩
  · rw [createBlock]
    split_ifs <;> rfl
  · rw [createBlock] at hk hne
    split_ifs at hk hne
    · exact htidy k block hk hne
    · rcases lt_or_ge k b.function.blocks.length with hlt | hge
      · rw [List.getElem?_append_left hlt] at hk
        exact htidy k block hk hne
      · rw [List.getElem?_append_right hge] at hk
        obtain rfl := List.mem_singleton.mp (List.mem_of_getElem? hk)
        exact waits_of_created

/-- A builder that creates blocks stays where it is. -/
structure StandsStill (b b' : ControlFlowBuilder) : Prop where
  inBlock : InBlock b b'
  current : b.function.validBlock b.insertionBlock → b'.current = b.current

lemma StandsStill.refl (b : ControlFlowBuilder) : StandsStill b b := ⟨.refl b, fun _ => rfl⟩

/-- Standing still is transitive. -/
lemma StandsStill.trans (h : StandsStill b b') (h' : StandsStill b' b'') : StandsStill b b'' := by
  refine ⟨h.inBlock.trans h'.inBlock, fun hvalid => ?_⟩
  have hvalid' := h.inBlock.part.validBlock hvalid
  rw [← h.inBlock.insertionBlock] at hvalid'
  exact (h'.current hvalid').trans (h.current hvalid)

/-- Creating a block stands still. -/
lemma standsStill_createBlock {types : List ValueType} : StandsStill b (b.createBlock types).2 := by
  refine ⟨inBlock_createBlock, fun hvalid => ?_⟩
  rw [createBlock]
  split_ifs
  · rfl
  · rw [current, current, List.getD, List.getD, List.getElem?_append_left hvalid.2]

/-- A run does not notice the new blocks. -/
lemma StandsStill.yields {f : ControlFlowFunction} {host : Host} (h : StandsStill b b')
    (hvalid : b.function.validBlock b.insertionBlock) {s : Values} {m : Machine} {post : Post}
    (hyields : f.Yields host b' s m post) : f.Yields host b s m post := by
  obtain ⟨enough, hpost⟩ := hyields
  refine ⟨enough, fun budget hbudget => ?_⟩
  have hresume := hpost budget hbudget
  rwa [ControlFlowFunction.resume, h.inBlock.insertionBlock, h.current hvalid] at hresume

/-- A new builder is tidy. -/
lemma tidy_create (types : List ValueType) : (create types).Tidy := by
  intro k block hk hne
  have hindex : (create types).insertionBlock.index = 0 := rfl
  rw [hindex] at hne
  have hlt := (List.getElem?_eq_some_iff.mp hk).1
  have hone : (create types).function.blocks.length = 1 := rfl
  omega

lemma setInsertionBlock_eq_ok {block : Block} : b.setInsertionBlock block = .ok b' ↔
    b.function.validBlock block ∧ b' = { b with insertionBlock := block } := by
  simp only [setInsertionBlock, require_bind_eq_ok, pure_eq_ok]

/-- Moving the insertion point leaves the graph as it is. -/
lemma partOf_setInsertionBlock {block : Block} (h : b.setInsertionBlock block = .ok b') :
    b.function.PartOf b'.function := by
  obtain ⟨-, rfl⟩ := setInsertionBlock_eq_ok.mp h
  exact .refl _

/-- A clean builder is tidy at any insertion point. -/
lemma Clean.setInsertionBlock {block : Block} (h : b.Clean)
    (hset : b.setInsertionBlock block = .ok b') : b'.Tidy := by
  obtain ⟨-, rfl⟩ := setInsertionBlock_eq_ok.mp hset
  exact fun k block hk _ => h k block hk

/-- A block is ended. -/
structure Ends (b : ControlFlowBuilder) (terminator : ControlTerminator) (b' : ControlFlowBuilder) :
    Prop where
  isSome : terminator ≠ .none
  set : b.setTerminator terminator = .ok b'

/-- Ending the block of a tidy builder leaves nothing half done. -/
lemma Ends.clean {terminator : ControlTerminator} (h : Ends b terminator b') (htidy : b.Tidy) :
    b'.Clean := by
  obtain ⟨hvalid, -, rfl⟩ := ControlFlowFunction.setTerminator_eq_ok.mp h.set
  intro k block hk
  by_cases hne : k = b.insertionBlock.index
  · subst hne
    rw [List.getElem?_set_self hvalid.2] at hk
    cases hk
    exact fun hopen => absurd hopen h.isSome
  · rw [List.getElem?_set_ne (Ne.symm hne)] at hk
    exact htidy k block hk hne

lemma Ends.ret {v : Value} (h : b.setReturn v = .ok b') : Ends b (.ret v) b' :=
  ⟨by simp, (ControlFlowFunction.setReturn_eq_ok h).2⟩

/-- A jump ends the block. -/
lemma Ends.jump {target : Block} {arguments : List Value} (h : b.jump target arguments = .ok b') :
    Ends b (.jump ⟨target, arguments⟩) b' :=
  ⟨by simp, (ControlFlowFunction.jump_eq_ok h).2⟩

/-- A branch ends the block. -/
lemma Ends.branch {condition : Value} {trueTarget falseTarget : Block}
    {trueArguments falseArguments : List Value}
    (h : b.branch condition trueTarget trueArguments falseTarget falseArguments = .ok b') :
    Ends b (.branch condition ⟨trueTarget, trueArguments⟩ ⟨falseTarget, falseArguments⟩) b' :=
  ⟨by simp, (ControlFlowFunction.branch_eq_ok h).2.2.2⟩

end ControlFlowBuilder

/-! ## Runs into blocks -/

namespace ControlFlowFunction

open ControlFlowBuilder

variable {f : ControlFlowFunction} {host : Host} {b b₁ b₂ b' : ControlFlowBuilder}

/-- The parameters of a block of an owned graph are valid. -/
lemma Owned.parameters_valid (howned : f.Owned) {k : Nat} {block : BasicBlock}
    (hblock : f.blocks[k]? = some block) : ∀ v ∈ block.parameters, v.valid := by
  intro v hv
  obtain ⟨i, hi, rfl⟩ := List.getElem_of_mem hv
  have hle := (howned.block hblock).parameters
  obtain ⟨n, -, hnode⟩ := (howned.block hblock).instruction i _ (List.getElem?_eq_getElem (by omega))
  have hsame := (hnode.parameter hi).1
  rw [List.getElem?_eq_getElem hi] at hsame
  rw [Option.some.inj hsame]
  exact hnode.valid.1

/-- What holds of a finished graph because of a fragment that was emitted between two points. -/
structure Fragment (f : ControlFlowFunction) (b b' : ControlFlowBuilder) (P : Prop) : Prop where
  part : b.function.PartOf b'.function
  clean : b.Clean → b'.Clean
  holds : b.Clean → b'.function.PartOf f → P

/-- Two fragments in a row give what each of them gives. -/
lemma Fragment.and {P Q : Prop} (h : f.Fragment b b₁ P) (h' : f.Fragment b₁ b' Q) :
    f.Fragment b b' (P ∧ Q) :=
  ⟨h.part.trans h'.part, fun hclean => h'.clean (h.clean hclean), fun hclean hpart =>
    ⟨h.holds hclean (h'.part.trans hpart), h'.holds (h.clean hclean) hpart⟩⟩

/-- A fragment gives what follows from what it gives. -/
lemma Fragment.imp {P Q : Prop} (h : f.Fragment b b' P) (hPQ : b'.function.PartOf f → P → Q) :
    f.Fragment b b' Q :=
  ⟨h.part, h.clean, fun hclean hpart => hPQ hpart (h.holds hclean hpart)⟩

/-- What holds because of a fragment that ends the block at the insertion point. -/
structure Closing (f : ControlFlowFunction) (b b' : ControlFlowBuilder) (P : Prop) : Prop where
  part : b.function.PartOf b'.function
  unended : b.function.validBlock b.insertionBlock → b.current.terminator = .none
  clean : b.Tidy → b'.Clean
  holds : b.Tidy → b'.function.PartOf f → P

lemma Closing.imp {P Q : Prop} (h : f.Closing b b' P) (hPQ : b'.function.PartOf f → P → Q) :
    f.Closing b b' Q :=
  ⟨h.part, h.unended, h.clean, fun htidy hpart => hPQ hpart (h.holds htidy hpart)⟩

/-- A closing fragment followed by another gives what each of them gives. -/
lemma Closing.and {P Q : Prop} (h : f.Closing b b₁ P) (h' : f.Fragment b₁ b' Q) :
    f.Closing b b' (P ∧ Q) :=
  ⟨h.part.trans h'.part, h.unended, fun htidy => h'.clean (h.clean htidy), fun htidy hpart =>
    ⟨h.holds htidy (h'.part.trans hpart), h'.holds (h.clean htidy) hpart⟩⟩

/-- Filling the block further before it is closed changes nothing about its close. -/
lemma Closing.of_inBlock {P : Prop} (hin : InBlock b b₁) (h : f.Closing b₁ b' P) :
    f.Closing b b' P := by
  refine ⟨hin.part.trans h.part, fun hvalid => ?_, fun htidy => h.clean (hin.tidy htidy),
    fun htidy => h.holds (hin.tidy htidy)⟩
  have hcurrent := getElem?_current hvalid
  obtain ⟨block, hblock, -, -, hsealed⟩ := hin.part.block hcurrent
  by_contra hne
  have hunended := h.unended (hin.insertionBlock ▸ hin.part.validBlock hvalid)
  rw [current, List.getD, hin.insertionBlock, hblock, Option.getD_some, hsealed hne] at hunended
  exact hne hunended

/-- Ending the block is a closing fragment. -/
lemma closing_of_ends {terminator : ControlTerminator} (hends : Ends b terminator b') :
    f.Closing b b' True :=
  ⟨partOf_setTerminator hends.set, fun _ => (setTerminator_eq_ok.mp hends.set).2.1, hends.clean,
    fun _ _ => trivial⟩

/-- A block is filled at one stretch: a run enters it where its filling begins. -/
lemma Closing.filled {P : Prop} (h : f.Closing b₁ b' P) (host : Host) (howned : f.Owned)
    {block : Block} (hset : b.setInsertionBlock block = .ok b₁) : f.Fragment b b'
      (P ∧ ∀ s m post, f.Yields host b₁ s m post → f.YieldsAt host block s m post) := by
  obtain ⟨hvalid, hb₁⟩ := setInsertionBlock_eq_ok.mp hset
  have hfunction : b₁.function = b.function := by rw [hb₁]
  have hinsertion : b₁.insertionBlock = block := by rw [hb₁]
  subst hinsertion
  refine ⟨hfunction ▸ h.part, fun hclean => h.clean (hclean.setInsertionBlock hset),
    fun hclean hpart => ⟨h.holds (hclean.setInsertionBlock hset) hpart, ?_⟩⟩
  intro s m post hyields
  have hvalid₁ : b₁.function.validBlock b₁.insertionBlock := by rwa [hfunction]
  have hcurrent := getElem?_current hvalid₁
  have hpart₁ := h.part.trans hpart
  obtain ⟨block', hblock', hparameters, -, -⟩ := hpart₁.block hcurrent
  have hparameters' := howned.parameters_valid hblock'
  rw [hparameters] at hparameters'
  have hunended := h.unended hvalid₁
  rw [hfunction] at hcurrent
  exact hyields.start hvalid₁ hpart₁ (hclean _ _ hcurrent hunended hparameters')

/-! ## Parameters -/

/-- An owned graph respects the node limit. -/
lemma Owned.length_le (howned : f.Owned) : f.nodes.length ≤ kInvalidIndex.toNat := by
  by_contra hlarge
  obtain ⟨k, i, block, v, hblock, hv, hindex⟩ := howned.total (not_le.mp hlarge)
  have hvalid := (howned.valid hblock hv).1
  exact hvalid (BitVec.eq_of_toNat_eq hindex)

/-- A created block. -/
lemma createBlock_of_valid {types : List ValueType} {block : Block}
    (h : b.createBlock types = (block, b')) (hvalid : block.valid) :
    b'.function.nodes = b.function.nodes ++
        parameterNodes .blockParameter b.function.nodes.length types ∧
      ∃ created : BasicBlock, b'.function.blocks[block.index]? = some created ∧
        created.parameters = parameterValues b.function.nodes.length types.length := by
  rw [createBlock] at h
  split_ifs at h with hroom
  · obtain rfl : Block.invalid = block := congrArg Prod.fst h
    exact absurd rfl hvalid
  obtain ⟨hblock, rfl⟩ := Prod.mk.inj h
  have hindex : block.index = b.function.blocks.length := by
    rw [← hblock]
    simp only [Block.ofIndex, Block.index, BitVec.toNat_ofNat]
    have hlt := kInvalidIndex.isLt
    omega
  exact ⟨rfl, _, by rw [hindex, List.getElem?_append_right le_rfl]; simp; rfl, rfl⟩

/-- The parameters of a created block in the finished graph. -/
lemma hasParameters_of_createBlock (howned : f.Owned) {block : Block} {count : Nat}
    (h : b.createBlock (List.replicate count .word) = (block, b')) (hvalid : block.valid)
    (hpart : b'.function.PartOf f) : f.HasParameters block b.function.nodes.length count := by
  obtain ⟨hnodes, created, hcreated, hparameters⟩ := createBlock_of_valid h hvalid
  obtain ⟨block', hblock', hsame, -, -⟩ := hpart.block hcreated
  have hvalues := howned.parameters_valid hblock'
  rw [hsame, hparameters] at hvalues
  obtain ⟨hlength, hbound⟩ := length_parameterNodes ControlOpcode.blockParameter hvalues
  rw [List.length_replicate] at hparameters hvalues hlength hbound
  have hprefix := hpart.nodes
  rw [hnodes] at hprefix
  have hle := hprefix.length_le
  rw [List.length_append, hlength] at hle
  have hlarge := howned.length_le
  refine ⟨?_, by omega, fun index hindex => ?_⟩
  · rw [List.getD, hblock', Option.getD_some, hsame, hparameters, parameterValues]
    apply List.map_congr_left
    intro index hindex
    have hlt := List.mem_range.mp hindex
    rw [if_pos (by omega)]
  · refine ⟨{ opcode := .blockParameter, immediate := BitVec.ofNat 64 index, type := .word }, ?_, rfl⟩
    apply getElem?_of_prefix hprefix
    rw [List.getElem?_append_right (Nat.le_add_right _ _), Nat.add_sub_cancel_left, parameterNodes,
      List.getElem?_mapIdx, List.getElem?_take_of_lt (by omega), List.getElem?_replicate_of_lt hindex]
    rfl

/-- A block that was created before a builder came to a point: its parameters are the values from
`first` on. -/
structure Created (f : ControlFlowFunction) (b : ControlFlowBuilder) (block : Block)
    (first count : Nat) : Prop where
  parameters : f.HasParameters block first count
  valid : b.function.validBlock block
  le : first + count ≤ b.function.nodes.length

lemma Created.mono {block : Block} {first count : Nat} (h : f.Created b block first count)
    (hpart : b.function.PartOf b'.function) : f.Created b' block first count :=
  ⟨h.parameters, hpart.validBlock h.valid, h.le.trans hpart.nodes.length_le⟩

/-- A block created with word parameters has them as its values. -/
lemma created_of_createBlock (howned : f.Owned) {block : Block} {count : Nat}
    (h : b.createBlock (List.replicate count .word) = (block, b')) (hvalid : block.valid)
    (hpart : b'.function.PartOf f) : f.Created b' block b.function.nodes.length count := by
  have hparameters := hasParameters_of_createBlock howned h hvalid hpart
  obtain ⟨hnodes, created, hcreated, hvalues⟩ := createBlock_of_valid h hvalid
  refine ⟨hparameters, ⟨hvalid, (List.getElem?_eq_some_iff.mp hcreated).1⟩, ?_⟩
  obtain ⟨block', hblock', hsame, -, -⟩ := hpart.block hcreated
  have hvalid' := howned.parameters_valid hblock'
  rw [hsame, hvalues] at hvalid'
  have hlength := (length_parameterNodes ControlOpcode.blockParameter hvalid').1
  rw [hnodes, List.length_append, hlength, List.length_replicate]

/-- A block without parameters takes no values. -/
lemma Created.moved {block : Block} {first : Nat} (h : f.Created b block first 0)
    (howned : f.Owned) (hpart : b.function.PartOf f) :
    f.Created b block b.function.nodes.length 0 := by
  have hle := hpart.nodes.length_le.trans howned.length_le
  have hparameters := h.parameters.parameters
  exact ⟨⟨by simpa using hparameters, hle, by simp⟩, h.valid, le_rfl⟩

/-- The handle of a parameter. -/
lemma Created.blockParameter {block : Block} {first count : Nat} (h : f.Created b block first count)
    (hpart : b.function.PartOf f) {index : Nat} (hindex : index < count) :
    b.blockParameter block index = .ofIndex (first + index) := by
  obtain ⟨block', hblock', hsame, -, -⟩ := hpart.block (List.getElem?_eq_getElem h.valid.2)
  have hget := h.parameters.getD hindex
  rw [List.getD, List.getD, hblock', Option.getD_some, hsame] at hget
  rw [ControlFlowBuilder.blockParameter, if_pos h.valid, List.getD, List.getD,
    List.getElem?_eq_getElem h.valid.2, Option.getD_some, hget]

/-- The values after an edge: the arguments have been passed to the parameters. -/
structure Passes (first count : Nat) (arguments : List Value) (s s' : Values) : Prop where
  keeps : Keeps first s s'
  word : ∀ index < count,
    s'.word (.ofIndex (first + index)) = s.word (arguments.getD index .invalid)

/-- An edge that the builder has checked. -/
lemma passes_of_validateEdge (hpart : b.function.PartOf f) {target : Block} {first count : Nat}
    (hparameters : f.HasParameters target first count) {arguments : List Value}
    (h : b.validateEdge target arguments = .ok ()) (s : Values)
    (hlength : s.words.length = f.nodes.length) : arguments.length = count ∧
      Passes first count arguments s (f.followEdge ⟨target, arguments⟩ s) := by
  simp only [validateEdge, require_bind_eq_ok, require_eq_ok] at h
  obtain ⟨⟨hvalid, -⟩, hcount, htypes⟩ := h
  obtain ⟨block', hblock', hsame, -, -⟩ := hpart.block (List.getElem?_eq_getElem hvalid.2)
  have hcreated := hparameters.parameters
  rw [List.getD, hblock', Option.getD_some, hsame] at hcreated
  rw [List.getD, List.getElem?_eq_getElem hvalid.2, Option.getD_some] at hcount htypes
  have hlengths : arguments.length = count := by rw [hcount, hcreated]; simp
  have hscalar : ∀ a ∈ arguments, isVectorValueType (f.valueType a) = false := by
    intro a ha
    obtain ⟨index, hindex, rfl⟩ := List.getElem_of_mem ha
    have hpair : (arguments[index], Value.ofIndex (first + index)) ∈
        arguments.zip (b.function.blocks[target.index]).parameters := by
      rw [hcreated, List.mem_iff_getElem]
      refine ⟨index, by simp; omega, by simp⟩
    obtain ⟨⟨hvalid', hlt⟩, htype⟩ := htypes _ hpair
    obtain ⟨n, hn, hvector⟩ := hparameters.node index (by omega)
    have hget := getElem?_of_prefix hpart.nodes (List.getElem?_eq_getElem hlt)
    simp only [typeOf, hparameters.index (by omega : index < count),
      List.getElem?_eq_getElem hlt, Option.map_some] at htype
    obtain ⟨n', hn', htype'⟩ := Option.map_eq_some_iff.mp htype.symm
    have hsame' := getElem?_of_prefix hpart.nodes hn'
    rw [hn] at hsame'
    cases hsame'
    rw [ControlFlowFunction.valueType, if_pos hvalid', hget, Option.map_some, Option.getD_some,
      ← htype', hvector]
  refine ⟨hlengths, ?_⟩
  rw [followEdge_eq hparameters hlengths hscalar]
  refine ⟨⟨Values.length_pass, fun v hv => Values.word_pass_of_outside (.inl hv)⟩, ?_⟩
  intro index hindex
  have hle := hparameters.le_length (by omega)
  exact Values.word_pass hindex (hparameters.index hindex) (by omega)

/-- The arguments of a valid edge exist. -/
lemma validValue_of_validateEdge {target : Block} {arguments : List Value}
    (h : b.validateEdge target arguments = .ok ()) : ∀ v ∈ arguments, b.function.validValue v := by
  simp only [validateEdge, require_bind_eq_ok, require_eq_ok] at h
  obtain ⟨-, hcount, htypes⟩ := h
  intro v hv
  obtain ⟨index, hindex, rfl⟩ := List.getElem_of_mem hv
  have hlt : index < (arguments.zip
      (b.function.blocks.getD target.index {}).parameters).length := by
    rw [List.length_zip]
    omega
  have hpair := (htypes _ (List.getElem_mem hlt)).1
  rwa [List.getElem_zip] at hpair

/-- What a block yields satisfies whatever follows from it. -/
lemma YieldsAt.mono {block : Block} {s : Values} {m : Machine} {post post' : Post}
    (hpost : ∀ r, post r → post' r) (h : f.YieldsAt host block s m post) :
    f.YieldsAt host block s m post' := by
  obtain ⟨enough, hruns⟩ := h
  exact ⟨enough, fun budget hbudget => hpost _ (hruns budget hbudget)⟩

section edges

variable {s : Values} {m : Machine} {post : Post} {first count : Nat} {target : Block}
  {arguments : List Value}

/-- A jump to a block with these parameters. -/
lemma Yields.jump_to (h : b.jump target arguments = .ok b') (hpart : b'.function.PartOf f)
    (hparameters : f.HasParameters target first count) (hlength : s.words.length = f.nodes.length)
    (hnext : arguments.length = count → ∀ s', Passes first count arguments s s' →
      f.YieldsAt host target s' m post) : f.Yields host b s m post := by
  obtain ⟨hedge, hset⟩ := jump_eq_ok h
  have hpart' := (partOf_setTerminator hset).trans hpart
  obtain ⟨hcount, hpasses⟩ := passes_of_validateEdge hpart' hparameters hedge s hlength
  exact .jump h hpart (hnext hcount _ hpasses)

/-- A branch to two blocks with these parameters. -/
lemma Yields.branch_to {condition : Value} {first' count' : Nat} {target' : Block}
    {arguments' : List Value} (h : b.branch condition target arguments target' arguments' = .ok b')
    (hpart : b'.function.PartOf f) (hparameters : f.HasParameters target first count)
    (hparameters' : f.HasParameters target' first' count')
    (hlength : s.words.length = f.nodes.length)
    (hnext : s.word condition ≠ 0 → arguments.length = count →
      ∀ s', Passes first count arguments s s' → f.YieldsAt host target s' m post)
    (hnext' : s.word condition = 0 → arguments'.length = count' →
      ∀ s', Passes first' count' arguments' s s' → f.YieldsAt host target' s' m post) :
    f.Yields host b s m post := by
  obtain ⟨-, hedge, hedge', hset⟩ := branch_eq_ok h
  have hpart' := (partOf_setTerminator hset).trans hpart
  obtain ⟨hcount, hpasses⟩ := passes_of_validateEdge hpart' hparameters hedge s hlength
  obtain ⟨hcount', hpasses'⟩ := passes_of_validateEdge hpart' hparameters' hedge' s hlength
  exact .branch h hpart (fun hne => hnext hne hcount _ hpasses)
    fun hzero => hnext' hzero hcount' _ hpasses'

end edges

/-! ## The start -/

section start

variable {count : Nat} {type : ValueType} (hcount : count < 256)
include hcount

/-- The parameters of a new builder are its first values. -/
lemma parameterValues_create :
    parameterValues 0 count = (List.range count).map Value.ofIndex := by
  have hlarge : 256 < kInvalidIndex.toNat := by decide
  apply List.map_congr_left
  intro index hindex
  have hlt := List.mem_range.mp hindex
  rw [Nat.zero_add, if_pos (by omega)]

/-- A new builder holds its parameters only. -/
lemma length_nodes_create : (create (List.replicate count type)).function.nodes.length = count := by
  have hlarge : 256 < kInvalidIndex.toNat := by decide
  show (parameterNodes _ 0 _).length = count
  rw [parameterNodes, List.length_mapIdx, List.length_take, List.length_replicate]
  omega

/-- A parameter of a new builder is the value at its index. -/
lemma parameter_create {r : Nat} (hr : r < count) :
    (create (List.replicate count type)).parameter r = .ofIndex r := by
  show (parameterValues 0 (List.replicate count type).length).getD r .invalid = _
  rw [List.length_replicate, parameterValues_create hcount]
  simp [List.getD, hr]

/-- The arguments of a run, in the values that it starts with. -/
lemma assignArguments_spec (args : List Word)
    (hpart : (create (List.replicate count type)).function.PartOf f) (s : Values)
    (hlength : s.words.length = f.nodes.length) :
    (f.assignArguments args s).words.length = f.nodes.length ∧
      ∀ r < count, (f.assignArguments args s).word (.ofIndex r) = args.getD r 0 := by
  have hlarge : 256 < kInvalidIndex.toNat := by decide
  have hentry : (f.blocks.getD f.entryBlock.index {}).parameters =
      (List.range count).map Value.ofIndex := by
    obtain ⟨block', hblock', hsame, -, -⟩ := hpart.block (k := 0) rfl
    have hzero : f.entryBlock.index = 0 := by rw [← hpart.entryBlock]; rfl
    rw [hzero, List.getD, hblock', Option.getD_some, hsame]
    show parameterValues 0 (List.replicate count type).length = _
    rw [List.length_replicate, parameterValues_create hcount]
  have hnodes := hpart.nodes.length_le
  rw [length_nodes_create hcount] at hnodes
  have hassign : ∀ n ≤ count, ((List.range n).foldl (fun s index =>
        s.setWord (((List.range count).map Value.ofIndex).getD index .invalid).index
          (args.getD index 0)) s).words.length = f.nodes.length ∧
      ∀ r < n, ((List.range n).foldl (fun s index =>
        s.setWord (((List.range count).map Value.ofIndex).getD index .invalid).index
          (args.getD index 0)) s).word (.ofIndex r) = args.getD r 0 := by
    intro n hn
    induction n with
    | zero => exact ⟨hlength, fun r hr => absurd hr (Nat.not_lt_zero r)⟩
    | succ n ih =>
        obtain ⟨hsame, hwords⟩ := ih (by omega)
        have hparameter : (((List.range count).map Value.ofIndex).getD n .invalid).index = n := by
          rw [List.getD, List.getElem?_map, List.getElem?_range (by omega), Option.map_some,
            Option.getD_some, Value.index_ofIndex (by omega)]
        simp only [List.range_succ, List.foldl_append, List.foldl_cons, List.foldl_nil, hparameter]
        refine ⟨by rw [Values.length_setWord, hsame], fun r hr => ?_⟩
        have hindex : (Value.ofIndex r).index = r := Value.index_ofIndex (by omega)
        by_cases hlast : r = n
        · rw [Values.word_setWord_self (by rw [hindex, hlast]) (by omega), hlast]
        · rw [Values.word_setWord_of_ne (by omega)]
          exact hwords r (by omega)
  rw [assignArguments, hentry, List.length_map, List.length_range]
  exact hassign count le_rfl

omit hcount in
/-- A graph that was built from these parameters runs from behind them. -/
lemma interpret_of_yields {args : List Word} (hverify : f.verify = .ok ())
    (hpart : (create (List.replicate count type)).function.PartOf f) (hargs : args.length = count)
    {post : Post} (h : ∀ m, f.Yields host (create (List.replicate count type))
      (f.assignArguments args (Values.zero f.nodes.length)) m post) (m : Machine) :
    ∃ enough, ∀ budget, enough ≤ budget → post (f.interpret host args budget m) := by
  have howned := verify_owned hverify
  have hentry : f.entryBlock = .ofIndex 0 := hpart.entryBlock.symm
  have hparameters : f.parameterCount = count := by
    rw [parameterCount, ← hpart.parameterTypes]
    exact List.length_replicate
  have hbindings : ∀ context, checked (validateTrustedObjectBindings f.trustedObjects
      (trustedObjectWritable (· == .op .storeObject) f.nodes f.trustedObjects.length)
      context) = pure () := by
    intro context
    rw [← hpart.trustedObjects]
    exact congrArg checked (validate_no_objects _ _ context)
  have harguments : checked (require (args.length = f.parameterCount)
      ({ code := .invalidArgument
         message := "argument count does not match the function signature" } : Status)) =
      pure () := by
    simp [hargs, hparameters, require, checked]
  have hinsertion : (create (List.replicate count type)).insertionBlock = .ofIndex 0 := rfl
  have hvalid : (create (List.replicate count type)).function.validBlock
      (create (List.replicate count type)).insertionBlock := by
    rw [hinsertion]
    exact ⟨by decide, Nat.one_pos⟩
  have hfresh : (create (List.replicate count type)).current.instructions.length =
      (create (List.replicate count type)).current.parameters.length := by
    obtain ⟨block', hblock', hsame, -, -⟩ := hpart.block (k := 0) rfl
    have hvalues := howned.parameters_valid hblock'
    rw [hsame] at hvalues
    exact waits_of_created rfl hvalues
  obtain ⟨enough, hpost⟩ := Yields.start hvalid hpart hfresh
    (h { Machine.updateContext .clearExit m with
      frame := List.replicate f.frameSlots.length 0 })
  refine ⟨enough + 1, fun budget hbudget => ?_⟩
  have hpositive : checked (require (budget ≠ 0) ({ code := .invalidArgument, message :=
      "control-flow execution budget must be positive" } : Status)) = pure () := by
    have hne : budget ≠ 0 := by omega
    simp [hne, require, checked]
  have hrun := hpost budget (by omega)
  rw [interpret, hverify, harguments, hpositive, hentry]
  simp only [hbindings]
  exact hrun

end start

end ControlFlowFunction

end UniJit.Ir
