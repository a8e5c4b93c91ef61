import UniJit.Ir.ArrayInterpreters
import UniJit.Ir.ControlFlowBuilder

/-!
# Running code from the point where it is emitted

A translator emits code through a builder. At any moment the builder stands at a point of the
function that will be finished later: what it has emitted so far is a part of that function, and
what follows is still to come. `Code` describes a finished function from such points: `Yields b s m
post` says that the run that goes on from the point where `b` stands, with the values `s` and the
machine `m`, ends as `post` says.

The rules go backwards: a run yields a result before a node was appended if it yields it after the
node was appended, from the values that the node produces (`Code.step`), and a guard on zero ends
the run (`Code.exit`). A translation is proved correct by following its own calls of the builder
from the last one to the first, without ever looking at the list of nodes that they leave behind.
-/

namespace UniJit.Ir

open UniJit.Lib UniJit.Runtime

/-! ## Running a sequence -/

/-- A run goes on where its first part ended well. -/
lemma run_bind_of_ok {α β : Type} {x : Exec α} {k : α → Exec β} {m m' : Machine} {a : α}
    (h : x m = .ok a m') : (x >>= k) m = k a m' := by
  show EStateM.bind x k m = _
  rw [EStateM.bind, h]

/-- A run ends where its first part failed. -/
lemma run_bind_of_error {α β : Type} {x : Exec α} {k : α → Exec β} {m m' : Machine} {e : Status}
    (h : x m = .error e m') : (x >>= k) m = .error e m' := by
  show EStateM.bind x k m = _
  rw [EStateM.bind, h]

namespace Values

variable {s : Values} {index : Nat} {w : Word} {v : Value}

/-- The entry that was written is read back. -/
lemma word_setWord_self (h : v.index = index) (hlt : index < s.words.length) :
    (s.setWord index w).word v = w := by
  subst h
  simp [word, setWord, List.getD, hlt]

lemma word_setWord_of_ne (h : v.index ≠ index) : (s.setWord index w).word v = s.word v := by
  simp [word, setWord, List.getD, Ne.symm h]

@[simp] lemma length_setWord : (s.setWord index w).words.length = s.words.length := by
  simp [setWord]

end Values

/-! ## Points of a finished function -/

/-- The values that a builder has made, and whether it takes another one. -/
class LawfulScalarBuilder (B : Type) extends ScalarBuilder B where
  size : B → Nat
  accepts : B → Prop
  size_lt {b : B} : accepts b → size b < kInvalidIndex.toNat
  append_refused {b : B} {o : Operation} {type : ValueType} {lhs rhs : Value} {immediate : Word} :
    ¬ accepts b → append b o type lhs rhs immediate = (.invalid, b)
  append_value {b : B} {o : Operation} {type : ValueType} {lhs rhs : Value} {immediate : Word} :
    accepts b → (append b o type lhs rhs immediate).1 = .ofIndex (size b)
  size_append {b : B} {o : Operation} {type : ValueType} {lhs rhs : Value} {immediate : Word} :
    accepts b → size (append b o type lhs rhs immediate).2 = size b + 1

/-- What is asked of the end of a run. -/
abbrev Post := EStateM.Result Status Machine Word → Prop

/-- The texts of a guard that fires. -/
def guardTexts : List String :=
  ["nonzero guard requested a runtime exit",
   "control-flow nonzero guard requested a runtime exit"]

/-- The operand of a guard is zero, so that it leaves the function. -/
def guardFires (float : FloatUnit) (o : Operation) (x : Word) : Prop :=
  match o with
  | .guardWordNonzero => x = 0
  | .guardFloatNonzero => float.equal x 0 = true
  | _ => False

/-- Whether a guard fires can be computed. -/
instance (float : FloatUnit) (o : Operation) (x : Word) : Decidable (guardFires float o x) := by
  unfold guardFires
  split <;> infer_instance

/-- The value of an operation on scalars, if the run goes on after it. -/
def scalarValue (float : FloatUnit) (o : Operation) (immediate x y : Word) : Option Word :=
  match o with
  | .constant => some immediate
  | .binary o => some (evaluateBinary float o x y)
  | .unary .byteSwap => none
  | .unary o => some (evaluateUnary o .k8 x)
  | .guardWordNonzero => if guardFires float .guardWordNonzero x then none else some 0
  | .guardFloatNonzero => if guardFires float .guardFloatNonzero x then none else some 0
  | _ => none

/-- The handles that an operation on scalars reads denote earlier values. -/
def operandsBelow (o : Operation) (lhs rhs : Value) (bound : Nat) : Prop :=
  match o with
  | .constant => True
  | .binary _ => lhs.index < bound ∧ rhs.valid ∧ rhs.index < bound
  | _ => lhs.index < bound

/-- A finished function, as it is seen from the points where its builder was. -/
structure Code (B : Type) [LawfulScalarBuilder B] (float : FloatUnit) where
  /-- The number of values of the function. -/
  total : Nat
  /-- What the builder has made is a part of the function. -/
  Part : B → Prop
  Yields : B → Values → Machine → Post → Prop
  part_append {b : B} {o : Operation} {type : ValueType} {lhs rhs : Value} {immediate : Word} :
    Part (ScalarBuilder.append b o type lhs rhs immediate).2 → Part b
  size_le {b : B} : Part b → LawfulScalarBuilder.size b ≤ total
  step {b : B} {o : Operation} {type : ValueType} {lhs rhs : Value} {immediate w : Word}
      {s : Values} {m : Machine} {post : Post} :
    LawfulScalarBuilder.accepts b → Part (ScalarBuilder.append b o type lhs rhs immediate).2 →
    operandsBelow o lhs rhs (LawfulScalarBuilder.size b) →
    scalarValue float o immediate (s.word lhs) (s.word rhs) = some w →
    Yields (ScalarBuilder.append b o type lhs rhs immediate).2
      (s.setWord (LawfulScalarBuilder.size b) w) m post → Yields b s m post
  exit {b : B} {o : Operation} {type : ValueType} {lhs : Value} {immediate : Word} {s : Values}
      {m : Machine} {post : Post} :
    LawfulScalarBuilder.accepts b →
    Part (ScalarBuilder.append b o type lhs .invalid immediate).2 →
    lhs.index < LawfulScalarBuilder.size b → guardFires float o (s.word lhs) →
    (∀ text ∈ guardTexts, ∀ m', post (.error ⟨.runtimeExit, text, immediate.toNat⟩ m')) →
    Yields b s m post
  mono {b : B} {s : Values} {m : Machine} {post post' : Post} :
    (∀ r, post r → post' r) → Yields b s m post → Yields b s m post'

/-! ## Straight-line functions -/

section straight

variable {b : FunctionBuilder} {f : Function} {host : Host} {args : List Word}

/-- At the node limit the builder refuses and stays as it is. -/
lemma FunctionBuilder.append_of_le {n : Node} {arguments : List Value}
    (h : ¬ b.function.nodes.length < kInvalidIndex.toNat) :
    b.append n arguments = (.invalid, b) := by
  rw [append, if_pos (not_lt.mp h)]

/-- The straight-line builder obeys the laws of a scalar builder. -/
instance : LawfulScalarBuilder FunctionBuilder where
  size b := b.function.nodes.length
  accepts b := b.function.nodes.length < kInvalidIndex.toNat
  size_lt h := h
  append_refused h := FunctionBuilder.append_of_le h
  append_value h := by
    simp only [ScalarBuilder.append, FunctionBuilder.append_eq h]
  size_append h := by
    simp [ScalarBuilder.append, FunctionBuilder.append_eq h, Function.withNode]

/-- The run of a function from the node on that a builder would append next. -/
def Function.resume (f : Function) (host : Host) (args : List Word) (b : FunctionBuilder)
    (s : Values) : Exec Word := do
  let size := b.function.nodes.length
  let s ← f.executeNodes host args size (f.nodes.drop size) s
  pure (s.word f.returnValue)

/-- One node of the run. -/
lemma Function.resume_eq {n : Node} (h : f.nodes[b.function.nodes.length]? = some n)
    {b' : FunctionBuilder} (hsize : b'.function.nodes.length = b.function.nodes.length + 1)
    {s s' : Values} {m m' : Machine}
    (hrun : f.executeNode host args b.function.nodes.length n s m = .ok s' m') :
    f.resume host args b s m = f.resume host args b' s' m' := by
  obtain ⟨hlt, hn⟩ := List.getElem?_eq_some_iff.mp h
  simp only [resume, hsize]
  rw [List.drop_eq_getElem_cons hlt, hn, executeNodes, bind_assoc, run_bind_of_ok hrun]

/-- A node that fails ends the rest of the run. -/
lemma Function.resume_eq_error {n : Node} (h : f.nodes[b.function.nodes.length]? = some n)
    {s : Values} {m m' : Machine} {status : Status}
    (hrun : f.executeNode host args b.function.nodes.length n s m = .error status m') :
    f.resume host args b s m = .error status m' := by
  obtain ⟨hlt, hn⟩ := List.getElem?_eq_some_iff.mp h
  simp only [resume]
  rw [List.drop_eq_getElem_cons hlt, hn, executeNodes, bind_assoc, run_bind_of_error hrun]

/-- A node of an operation on scalars. -/
lemma Function.executeNode_scalar {o : Operation} {type : ValueType} {lhs rhs : Value}
    {immediate w : Word} {index : Nat} {s : Values} {m : Machine}
    (hoperands : operandsBelow o lhs rhs index)
    (hvalue : scalarValue host.float o immediate (s.word lhs) (s.word rhs) = some w) :
    f.executeNode host args index
      { opcode := .op o, lhs := lhs, rhs := rhs, immediate := immediate, type := type } s m =
        .ok (s.setWord index w) m := by
  cases o with
  | constant =>
      obtain rfl : immediate = w := by simpa [scalarValue] using hvalue
      rfl
  | binary o =>
      obtain rfl := Option.some.inj hvalue
      have hrhs : rhs.valid := hoperands.2.1
      cases o <;>
        simp [executeNode, hrhs, Function.evaluateBinary, Ir.evaluateBinary, Function.shiftLeft,
          Ir.shiftLeft, wordOfBool, pure, EStateM.pure]
  | unary o =>
      cases o with
      | negate | bitwiseNot | floatNegate =>
          obtain rfl := Option.some.inj hvalue
          rfl
      | byteSwap => simp [scalarValue] at hvalue
  | guardWordNonzero =>
      obtain ⟨hquiet, rfl⟩ : ¬ guardFires host.float .guardWordNonzero (s.word lhs) ∧ 0 = w := by
        simpa [scalarValue] using hvalue
      have hne : ¬ s.word lhs = 0 := hquiet
      have hlhs : lhs.index ≠ index := Nat.ne_of_lt hoperands
      simp only [executeNode, Values.word_setWord_of_ne hlhs, if_neg hne]
      rfl
  | guardFloatNonzero =>
      obtain ⟨hquiet, rfl⟩ : ¬ guardFires host.float .guardFloatNonzero (s.word lhs) ∧ 0 = w := by
        simpa [scalarValue] using hvalue
      have hne : ¬ host.float.equal (s.word lhs) 0 = true := hquiet
      have hlhs : lhs.index ≠ index := Nat.ne_of_lt hoperands
      simp only [executeNode, Values.word_setWord_of_ne hlhs, if_neg hne]
      rfl
  | _ => simp [scalarValue] at hvalue

/-- A guard that fires leaves the function with its site. -/
lemma Function.executeNode_exit (f : Function) (host : Host) (args : List Word) {o : Operation}
    {type : ValueType} {lhs : Value} (immediate : Word) {index : Nat} {s : Values} (m : Machine)
    (hlhs : lhs.index < index) (hfires : guardFires host.float o (s.word lhs)) :
    ∃ m', f.executeNode host args index
      { opcode := .op o, lhs := lhs, immediate := immediate, type := type } s m =
        .error ⟨.runtimeExit, "nonzero guard requested a runtime exit", immediate.toNat⟩ m' := by
  have hne := Nat.ne_of_lt hlhs
  cases o with
  | guardWordNonzero =>
      have hzero : s.word lhs = 0 := hfires
      simp only [executeNode, Values.word_setWord_of_ne hne, if_pos hzero]
      exact ⟨_, rfl⟩
  | guardFloatNonzero =>
      have hzero : host.float.equal (s.word lhs) 0 = true := hfires
      simp only [executeNode, Values.word_setWord_of_ne hne, if_pos hzero]
      exact ⟨_, rfl⟩
  | _ => exact hfires.elim

/-- A function that has only grown. -/
structure Function.PartOf (g f : Function) : Prop where
  parameterTypes : g.parameterTypes = f.parameterTypes
  trustedObjects : g.trustedObjects = f.trustedObjects
  nodes : g.nodes <+: f.nodes

/-- A part of a part is a part. -/
lemma Function.PartOf.trans {e g f : Function} (heg : e.PartOf g) (hgf : g.PartOf f) :
    e.PartOf f :=
  ⟨heg.parameterTypes.trans hgf.parameterTypes, heg.trustedObjects.trans hgf.trustedObjects,
    heg.nodes.trans hgf.nodes⟩

/-- A node that was appended is a node of every function the builder is part of. -/
lemma FunctionBuilder.getElem?_of_part {n : Node} {b : FunctionBuilder}
    (h : b.function.nodes.length < kInvalidIndex.toNat)
    (hpart : (b.append n).2.function.PartOf f) :
    f.nodes[b.function.nodes.length]? = some n := by
  apply getElem?_of_prefix hpart.nodes
  simp [append_eq h, Function.withNode]

/-- A finished straight-line function. -/
def Function.code (f : Function) (host : Host) (args : List Word) :
    Code FunctionBuilder host.float where
  total := f.nodes.length
  Part b := b.function.PartOf f
  Yields b s m post := post (f.resume host args b s m)
  part_append := by
    intro b o type lhs rhs immediate hpart
    by_cases h : b.function.nodes.length < kInvalidIndex.toNat
    · have hgrown : b.function.PartOf
          (ScalarBuilder.append b o type lhs rhs immediate).2.function := by
        simp only [ScalarBuilder.append, FunctionBuilder.append_eq h, Function.withNode]
        exact ⟨rfl, rfl, List.prefix_append ..⟩
      exact hgrown.trans hpart
    · rwa [LawfulScalarBuilder.append_refused h] at hpart
  size_le := fun hpart => hpart.nodes.length_le
  step := by
    intro b o type lhs rhs immediate w s m post haccepts hpart hoperands hvalue hyields
    have hnode := FunctionBuilder.getElem?_of_part haccepts hpart
    rwa [Function.resume_eq hnode (LawfulScalarBuilder.size_append haccepts)
      (Function.executeNode_scalar hoperands hvalue)]
  exit := by
    intro b o type lhs immediate s m post haccepts hpart hlhs hfires hpost
    have hnode := FunctionBuilder.getElem?_of_part haccepts hpart
    obtain ⟨m', hrun⟩ := Function.executeNode_exit f host args immediate m hlhs hfires
    rw [Function.resume_eq_error hnode hrun]
    exact hpost _ (by simp [guardTexts]) m'
  mono := fun hpost hyields => hpost _ hyields

end straight

/-! ## Control-flow graphs -/

namespace ControlFlowFunction

/-- A graph that has only grown: its blocks keep their parameters, a block gets further
instructions only at its end, and none once it has its terminator. -/
structure PartOf (g f : ControlFlowFunction) : Prop where
  parameterTypes : g.parameterTypes = f.parameterTypes
  trustedObjects : g.trustedObjects = f.trustedObjects
  entryBlock : g.entryBlock = f.entryBlock
  nodes : g.nodes <+: f.nodes
  callArguments : g.callArguments <+: f.callArguments
  block : ∀ {k : Nat} {block : BasicBlock}, g.blocks[k]? = some block →
    ∃ block' : BasicBlock, f.blocks[k]? = some block' ∧ block'.parameters = block.parameters ∧
      block.instructions <+: block'.instructions ∧ (block.terminator ≠ .none → block' = block)

variable {e f g : ControlFlowFunction} {host : Host}

/-- A graph is part of itself. -/
lemma PartOf.refl (f : ControlFlowFunction) : f.PartOf f :=
  ⟨rfl, rfl, rfl, List.prefix_rfl, List.prefix_rfl,
    fun h => ⟨_, h, rfl, List.prefix_rfl, fun _ => rfl⟩⟩

/-- A part of a part is a part. -/
lemma PartOf.trans (heg : e.PartOf g) (hgf : g.PartOf f) : e.PartOf f := by
  refine ⟨heg.parameterTypes.trans hgf.parameterTypes,
    heg.trustedObjects.trans hgf.trustedObjects, heg.entryBlock.trans hgf.entryBlock,
    heg.nodes.trans hgf.nodes, heg.callArguments.trans hgf.callArguments, fun h => ?_⟩
  obtain ⟨middle, hmiddle, hparameters, hinstructions, hsealed⟩ := heg.block h
  obtain ⟨last, hlast, hparameters', hinstructions', hsealed'⟩ := hgf.block hmiddle
  refine ⟨last, hlast, hparameters'.trans hparameters, hinstructions.trans hinstructions', ?_⟩
  intro hterminator
  obtain rfl := hsealed hterminator
  exact hsealed' hterminator

/-- Where the run goes on after the instructions of a block. -/
def finish (f : ControlFlowFunction) (host : Host) (budget : Nat) (terminator : ControlTerminator)
    (s : Values) : Exec Word :=
  match terminator with
  | .ret v => pure (s.word v)
  | .jump edge => f.executeBlocks host budget edge.target (f.followEdge edge s)
  | .branch condition trueEdge falseEdge =>
      let edge := if s.word condition ≠ 0 then trueEdge else falseEdge
      f.executeBlocks host budget edge.target (f.followEdge edge s)
  | .none => f.executeBlocks host budget Block.invalid s

/-- One unit of budget runs one block and follows its terminator. -/
lemma executeBlocks_succ {budget : Nat} {current : Block} {s : Values} :
    f.executeBlocks host (budget + 1) current s = (do
      let block := f.blocks.getD current.index {}
      let s ← f.executeInstructions host (block.instructions.drop block.parameters.length) s
      f.finish host budget block.terminator s) := by
  rw [executeBlocks]
  congr 1

/-- The run of a graph from the instruction on that a builder would append next. -/
def resume (f : ControlFlowFunction) (host : Host) (b : ControlFlowBuilder) (budget : Nat)
    (s : Values) : Exec Word := do
  let block := f.blocks.getD b.insertionBlock.index {}
  let s ← f.executeInstructions host (block.instructions.drop b.current.instructions.length) s
  f.finish host budget block.terminator s

end ControlFlowFunction

namespace ControlFlowBuilder

variable {b : ControlFlowBuilder} {f : ControlFlowFunction} {host : Host} {n : ControlNode}
  {arguments : List Value}

lemma getElem?_current (h : b.function.validBlock b.insertionBlock) :
    b.function.blocks[b.insertionBlock.index]? = some b.current := by
  simp [current, List.getD, h.2]

/-- An accepted node is added to the graph and to the current block. -/
lemma appendNode_of_accepts (h : b.accepts) : b.appendNode n arguments =
    (.ofIndex b.function.nodes.length,
      { b with function := { b.function with
          callArguments := b.function.callArguments ++ arguments
          nodes := b.function.nodes ++ [n]
          blocks := b.function.blocks.set b.insertionBlock.index
            { b.current with
              instructions := b.current.instructions ++ [.ofIndex b.function.nodes.length] } } }) := by
  rw [appendNode, if_pos h]

/-- A block that is set while it is open keeps the graph a part of what follows. -/
lemma partOf_set (nodes : List ControlNode) (arguments : List Value) (block : BasicBlock)
    (h : b.function.validBlock b.insertionBlock) (hopen : b.current.terminator = .none)
    (hparameters : block.parameters = b.current.parameters)
    (hinstructions : b.current.instructions <+: block.instructions) :
    b.function.PartOf { b.function with
      callArguments := b.function.callArguments ++ arguments
      nodes := b.function.nodes ++ nodes
      blocks := b.function.blocks.set b.insertionBlock.index block } := by
  refine ⟨rfl, rfl, rfl, List.prefix_append .., List.prefix_append .., ?_⟩
  intro k old hold
  by_cases hk : b.insertionBlock.index = k
  · subst hk
    obtain rfl := Option.some.inj ((getElem?_current h).symm.trans hold)
    exact ⟨block, by simp [h.2], hparameters, hinstructions, fun hne => absurd hopen hne⟩
  · exact ⟨old, by rw [List.getElem?_set_ne hk]; exact hold, rfl, List.prefix_rfl, fun _ => rfl⟩

/-- Appending leaves what was there in place. -/
lemma partOf_appendNode : b.function.PartOf (b.appendNode n arguments).2.function := by
  by_cases h : b.accepts
  · rw [appendNode_of_accepts h]
    exact partOf_set _ _ _ h.1 h.2.1 rfl (List.prefix_append ..)
  · rw [appendNode, if_neg h]
    exact .refl _

/-- The current block gains the appended value. -/
lemma current_appendNode (h : b.accepts) : (b.appendNode n arguments).2.current =
    { b.current with
      instructions := b.current.instructions ++ [.ofIndex b.function.nodes.length] } := by
  rw [appendNode_of_accepts h]
  simp [current, List.getD, h.1.2]

/-- Appending does not move the insertion point. -/
@[simp] lemma insertionBlock_appendNode :
    (b.appendNode n arguments).2.insertionBlock = b.insertionBlock := by
  rw [appendNode]
  split_ifs <;> rfl

/-- The node that was appended, in the finished graph. -/
lemma getD_of_partOf (h : b.accepts) (hpart : (b.appendNode n arguments).2.function.PartOf f) :
    f.nodes.getD (Value.ofIndex b.function.nodes.length).index { opcode := .parameter } = n := by
  have hn : f.nodes[b.function.nodes.length]? = some n := by
    apply getElem?_of_prefix hpart.nodes
    simp [appendNode_of_accepts h]
  rw [Value.index_ofIndex h.2.2, List.getD, hn, Option.getD_some]

/-- One instruction of the run. -/
lemma resume_appendNode (h : b.accepts) (hpart : (b.appendNode n arguments).2.function.PartOf f)
    (budget : Nat) (s : Values) :
    f.resume host b budget s = (do
      let s ← f.executeInstruction host (.ofIndex b.function.nodes.length) s
      f.resume host (b.appendNode n arguments).2 budget s) := by
  have hvalid : (b.appendNode n arguments).2.function.validBlock
      (b.appendNode n arguments).2.insertionBlock := by
    rw [insertionBlock_appendNode]
    exact ⟨h.1.1, by simpa [appendNode_of_accepts h] using h.1.2⟩
  obtain ⟨block, hblock, -, hprefix, -⟩ := hpart.block (getElem?_current hvalid)
  rw [insertionBlock_appendNode] at hblock
  rw [current_appendNode h] at hprefix
  obtain ⟨rest, hrest⟩ := hprefix
  simp only [ControlFlowFunction.resume, insertionBlock_appendNode, current_appendNode h,
    List.getD, hblock, Option.getD_some, ← hrest]
  simp [ControlFlowFunction.executeInstructions]

/-- The control-flow builder obeys the laws of a scalar builder. -/
instance : LawfulScalarBuilder ControlFlowBuilder where
  size b := b.function.nodes.length
  accepts b := b.accepts
  size_lt h := h.2.2
  append_refused h := by
    simp only [ScalarBuilder.append, appendNode, if_neg h]
  append_value h := by
    simp only [ScalarBuilder.append, appendNode_of_accepts h]
  size_append h := by
    simp [ScalarBuilder.append, appendNode_of_accepts h]

end ControlFlowBuilder

namespace ControlFlowFunction

variable {f : ControlFlowFunction} {host : Host} {b : ControlFlowBuilder}

/-- An instruction of an operation on scalars. -/
lemma executeInstruction_scalar {o : Operation} {type : ValueType} {lhs rhs v : Value}
    {immediate w : Word} {s : Values} {m : Machine} (hoperands : operandsBelow o lhs rhs v.index)
    (hn : f.nodes.getD v.index { opcode := .parameter } =
      { opcode := .op o, lhs := lhs, rhs := rhs, immediate := immediate, type := type })
    (hvalue : scalarValue host.float o immediate (s.word lhs) (s.word rhs) = some w) :
    f.executeInstruction host v s m = .ok (s.setWord v.index w) m := by
  cases o with
  | constant =>
      obtain rfl : immediate = w := by simpa [scalarValue] using hvalue
      simp only [executeInstruction, hn]
      rfl
  | binary o =>
      obtain rfl := Option.some.inj hvalue
      have hrhs : rhs.valid := hoperands.2.1
      simp only [executeInstruction, hn]
      cases o <;>
        simp [hrhs, evaluateNode, ControlOpcode.isAtomicAccess, ControlOpcode.operation?,
          Operation.isAtomicAccess, Ir.evaluateBinary, Ir.shiftLeft, wordOfBool, pure,
          EStateM.pure]
  | unary o =>
      cases o with
      | negate | bitwiseNot | floatNegate =>
          obtain rfl := Option.some.inj hvalue
          simp only [executeInstruction, hn]
          rfl
      | byteSwap => simp [scalarValue] at hvalue
  | guardWordNonzero =>
      obtain ⟨hquiet, rfl⟩ : ¬ guardFires host.float .guardWordNonzero (s.word lhs) ∧ 0 = w := by
        simpa [scalarValue] using hvalue
      have hne : ¬ s.word lhs = 0#64 := hquiet
      have hlhs : lhs.index ≠ v.index := Nat.ne_of_lt hoperands
      simp only [executeInstruction, hn]
      simp [Values.word_setWord_of_ne hlhs, hne, pure, EStateM.pure]
  | guardFloatNonzero =>
      obtain ⟨hquiet, rfl⟩ : ¬ guardFires host.float .guardFloatNonzero (s.word lhs) ∧ 0 = w := by
        simpa [scalarValue] using hvalue
      have hne : ¬ host.float.equal (s.word lhs) 0#64 = true := hquiet
      have hlhs : lhs.index ≠ v.index := Nat.ne_of_lt hoperands
      simp only [executeInstruction, hn]
      simp [Values.word_setWord_of_ne hlhs, hne, pure, EStateM.pure]
  | _ => simp [scalarValue] at hvalue

/-- A guard that fires leaves the graph with its site. -/
lemma executeInstruction_exit (host : Host) {o : Operation} {type : ValueType} {lhs v : Value}
    {immediate : Word} {s : Values} (m : Machine) (hlhs : lhs.index < v.index)
    (hn : f.nodes.getD v.index { opcode := .parameter } =
      { opcode := .op o, lhs := lhs, immediate := immediate, type := type })
    (hfires : guardFires host.float o (s.word lhs)) : ∃ m', f.executeInstruction host v s m =
      .error ⟨.runtimeExit, "control-flow nonzero guard requested a runtime exit",
        immediate.toNat⟩ m' := by
  have hne := Nat.ne_of_lt hlhs
  cases o with
  | guardWordNonzero =>
      have hzero : s.word lhs = 0 := hfires
      simp only [executeInstruction, hn]
      simp only [Values.word_setWord_of_ne hne, hzero]
      exact ⟨_, rfl⟩
  | guardFloatNonzero =>
      have hzero : host.float.equal (s.word lhs) 0 = true := hfires
      simp only [executeInstruction, hn]
      simp only [Values.word_setWord_of_ne hne, hzero]
      exact ⟨_, rfl⟩
  | _ => exact hfires.elim

/-- A finished graph; the budget of blocks is as large as the run needs it. -/
def code (f : ControlFlowFunction) (host : Host) : Code ControlFlowBuilder host.float where
  total := f.nodes.length
  Part b := b.function.PartOf f
  Yields b s m post := ∃ enough, ∀ budget, enough ≤ budget → post (f.resume host b budget s m)
  part_append := fun hpart => ControlFlowBuilder.partOf_appendNode.trans hpart
  size_le := fun hpart => hpart.nodes.length_le
  step := by
    intro b o type lhs rhs immediate w s m post haccepts hpart hoperands hvalue hyields
    have hn := ControlFlowBuilder.getD_of_partOf haccepts hpart
    have hindex := Value.index_ofIndex haccepts.2.2
    obtain ⟨enough, hpost⟩ := hyields
    refine ⟨enough, fun budget hbudget => ?_⟩
    rw [ControlFlowBuilder.resume_appendNode haccepts hpart,
      run_bind_of_ok (executeInstruction_scalar (by rw [hindex]; exact hoperands) hn hvalue),
      hindex]
    exact hpost budget hbudget
  exit := by
    intro b o type lhs immediate s m post haccepts hpart hlhs hfires hpost
    have hn := ControlFlowBuilder.getD_of_partOf haccepts hpart
    have hindex := Value.index_ofIndex haccepts.2.2
    obtain ⟨m', hrun⟩ := executeInstruction_exit host m
      (by rw [hindex]; exact hlhs) hn hfires
    refine ⟨0, fun budget _ => ?_⟩
    rw [ControlFlowBuilder.resume_appendNode haccepts hpart, run_bind_of_error hrun]
    exact hpost _ (by simp [guardTexts]) m'
  mono := by
    rintro b s m post post' hpost ⟨enough, hyields⟩
    exact ⟨enough, fun budget hbudget => hpost _ (hyields budget hbudget)⟩

end ControlFlowFunction

end UniJit.Ir
