import UniJit.Ir.ControlFlowFacts
import UniJit.Jit.RegisterAllocator
import UniJit.Runtime.Assumption
import UniJit.Runtime.Deoptimization

/-!
# Deoptimization metadata of a compilation

A compilation is given a deoptimization table for the function and a set of assumptions, and leaves
a table for the code that it has made. The optimizer may remove a guard, and moves the values that a
record captures; the code keeps what it captures at a guard in the order of the guard's stack map.
So the table is made in three steps: `prepareDeoptimization` collects the records of the guards that
are left and of the assumptions, with a default record where none is supplied,
`prepareStackMapRequirements` asks for the captured values to be in the stack maps, and
`resolveDeoptimizationCaptures` finds their indices there.

This is done for the two kinds of functions in the same way, so the definitions here are about an
`ExitSource`, which is what they read of a function, and a `FunctionKind` says what differs. The
optimizer and the back end are arbitrary: the one gives some function with a mapping of values, the
other some live values for each stack map. Resource limits and the target profile can only reject a
compilation, and memory is taken not to run out.
-/

namespace UniJit.Jit

open UniJit.Ir UniJit.Lib UniJit.Runtime

/-! ## Exit sites -/

/-- What is read of a node. -/
structure ExitNode where
  operation : Option Operation
  immediate : Word
  type : ValueType
  deriving DecidableEq, Repr

namespace ExitNode

/-- The site of an exit. -/
def site (n : ExitNode) : Nat := n.immediate.toNat

/-- The exit is a guard against zero. -/
def isNonzeroGuard (n : ExitNode) : Bool :=
  n.operation = some .guardWordNonzero ∨ n.operation = some .guardFloatNonzero

/-- A guard, a bounded memory access or a safepoint. -/
def isRuntimeExit (n : ExitNode) : Bool := n.operation.any (·.isRuntimeExit)

/-- A guard is a runtime exit. -/
lemma isRuntimeExit_of_isNonzeroGuard {n : ExitNode} (h : n.isNonzeroGuard = true) :
    n.isRuntimeExit = true := by
  rcases of_decide_eq_true h with hguard | hguard
  · simp [isRuntimeExit, hguard, Operation.isRuntimeExit]
  · simp [isRuntimeExit, hguard, Operation.isRuntimeExit]

end ExitNode

/-- What is read of a function. -/
structure ExitSource where
  parameterTypes : List ValueType
  nodes : List ExitNode
  valueType : Value → ValueType
  /-- A value is computed before an exit, on every path to it. -/
  available : Value → Value → Bool

namespace ExitSource

variable (f : ExitSource)

/-- The number of parameters. -/
def parameterCount : Nat := f.parameterTypes.length

/-- A guard has the site. -/
def hasGuardSite (site : Nat) : Bool := f.nodes.any fun n => n.isNonzeroGuard && n.site == site

/-- A runtime exit has the site. -/
def hasRuntimeExitSite (site : Nat) : Bool :=
  f.nodes.any fun n => n.isRuntimeExit && n.site == site

/-- The first guard with a site. -/
def guardValue (site : Nat) : Value :=
  match f.nodes.findIdx? fun n => n.isNonzeroGuard && n.site == site with
  | some index => Value.ofIndex index
  | none => .invalid

/-- The sites of the guards, in the order of the nodes. -/
def guardSites : List Nat := (f.nodes.filter (·.isNonzeroGuard)).map (·.site)

/-- No two runtime exits share a site. -/
def SitesDistinct : Prop :=
  f.nodes.Pairwise fun n m => n.isRuntimeExit = true → m.isRuntimeExit = true → n.site ≠ m.site

variable {f}

/-- Guards of distinct exits have distinct sites. -/
lemma nodup_guardSites (h : f.SitesDistinct) : f.guardSites.Nodup := by
  rw [guardSites, List.Nodup, List.pairwise_map, List.pairwise_filter]
  apply h.imp
  intro n m hne hn hm
  exact hne (n.isRuntimeExit_of_isNonzeroGuard hn) (m.isRuntimeExit_of_isNonzeroGuard hm)

/-- A site belongs to one runtime exit. -/
lemma eq_of_site_eq (h : f.SitesDistinct) {k l : Nat} {n m : ExitNode}
    (hn : f.nodes[k]? = some n) (hm : f.nodes[l]? = some m) (hexit : n.isRuntimeExit = true)
    (hexit' : m.isRuntimeExit = true) (hsite : n.site = m.site) : k = l := by
  obtain ⟨hk, rfl⟩ := List.getElem?_eq_some_iff.mp hn
  obtain ⟨hl, rfl⟩ := List.getElem?_eq_some_iff.mp hm
  have hat := List.pairwise_iff_getElem.mp h
  rcases Nat.lt_trichotomy k l with hlt | heq | hgt
  · exact absurd hsite (hat k l hk hl hlt hexit hexit')
  · exact heq
  · exact absurd hsite.symm (hat l k hl hk hgt hexit' hexit)

end ExitSource

/-! ## Values for the optimizer -/

/-- An exit with the values it has to keep alive. -/
structure OptimizationExitState where
  exit : Value
  liveValues : List Value := []
  deriving DecidableEq, Repr

/-- The texts of the errors that differ between the two kinds of functions. -/
structure ExitMessages where
  needsGuard : String
  unavailable : String
  mistyped : String
  unknownSite : String
  sharedSite : String

/-- One operation of a requested record: what it captures must be there at the guard. -/
def captureExitValue (messages : ExitMessages) (f : ExitSource) (site : Nat)
    (operation : RecoveryOperation) (state : OptimizationExitState) :
    Except Status OptimizationExitState :=
  if operation.source ≠ some .capturedValue then .ok state
  else do
    require state.exit.valid ⟨.invalidArgument, messages.needsGuard, site⟩
    require (f.available operation.sourceValue state.exit)
      ⟨.invalidArgument, messages.unavailable, site⟩
    require (f.valueType operation.sourceValue = operation.type)
      ⟨.invalidArgument, messages.mistyped, site⟩
    pure
      (if operation.sourceValue ∈ state.liveValues then state
        else { state with liveValues := state.liveValues ++ [operation.sourceValue] })

/-- What the optimizer has to keep alive at each exit. -/
def prepareOptimizationExitStates (messages : ExitMessages) (f : ExitSource)
    (requested : DeoptimizationTable) : Except Status (List OptimizationExitState) :=
  foldExcept (fun _ (record : Runtime.DeoptimizationRecord) states => do
    let state ← foldExcept (fun _ => captureExitValue messages f record.site) 0 record.recovery
      { exit := f.guardValue record.site }
    pure (if state.liveValues = [] then states else states ++ [state])) 0 requested.records []

/-! ## Collecting the records -/

/-- The record of an assumption for which none is supplied: every argument. -/
def assumptionFallback (f : ExitSource) (dependency : AssumptionDependency) :
    Runtime.DeoptimizationRecord where
  site := dependency.site
  resumeOffset := dependency.resumeOffset
  reason := some .assumptionInvalidated
  recovery := f.parameterTypes.zipIdx.map fun (type, index) => .ofArgument index type index

/-- One dependency of the assumptions. -/
def appendDependency (f : ExitSource) (requested : DeoptimizationTable)
    (dependency : AssumptionDependency) (result : DeoptimizationTable) :
    Except Status DeoptimizationTable :=
  match requested.find dependency.site with
  | some supplied => do
      require (supplied.reason = some .assumptionInvalidated)
        ⟨.invalidArgument, "assumption exit metadata has the wrong semantic reason",
          dependency.site⟩
      result.add supplied true
  | none => result.add (assumptionFallback f dependency) true

/-- The records of the assumptions, all of which must hold. -/
def appendAssumptionDeoptimization (f : ExitSource) (assumptions : AssumptionSet)
    (valid : Token → Bool) (requested result : DeoptimizationTable) :
    Except Status DeoptimizationTable :=
  match assumptions.firstInvalid valid with
  | some invalid =>
      .error ⟨.invalidArgument, "cannot compile against an invalidated assumption", invalid.site⟩
  | none =>
      foldExcept (fun _ => appendDependency f requested) 0 assumptions.dependencies result

/-- The record of a guard for which none is supplied: the value it has tested. -/
def guardFallback (input : ExitSource) (n : ExitNode) : Runtime.DeoptimizationRecord where
  site := n.site
  resumeOffset := n.site
  reason := some .guardFailed
  recovery :=
    [.ofExitValue input.parameterCount
      (if n.operation = some .guardWordNonzero then .word else .float64)]

/-- One node of the lowered function. -/
def appendGuard (input : ExitSource) (requested : DeoptimizationTable) (n : ExitNode)
    (result : DeoptimizationTable) : Except Status DeoptimizationTable :=
  if ¬ n.isNonzeroGuard then .ok result
  else if (result.find n.site).isSome then .ok result
  else result.add ((requested.find n.site).getD (guardFallback input n)) true

/-- The table of a lowered function and the captures it needs. -/
def prepareDeoptimization (messages : ExitMessages) (input lowered : ExitSource)
    (requested : DeoptimizationTable) (assumptions : AssumptionSet) (valid : Token → Bool) :
    Except Status DeoptimizationTable := do
  requested.validate input.parameterCount
  requested.records.forM fun record =>
    require (input.hasGuardSite record.site ∨ (assumptions.find record.site).isSome)
      ⟨.invalidArgument, messages.unknownSite, record.site⟩
  assumptions.dependencies.forM fun dependency =>
    require (¬ input.hasRuntimeExitSite dependency.site)
      ⟨.invalidArgument, messages.sharedSite, dependency.site⟩
  let result ← foldExcept (fun _ => appendGuard input requested) 0 lowered.nodes {}
  appendAssumptionDeoptimization input assumptions valid requested result

/-! ## Captured values -/

/-- The value of the lowered function that stands for a captured value at a site. -/
structure CaptureBinding where
  site : Nat
  source : Value
  lowered : Value
  deriving DecidableEq, Repr

/-- The lowered value of one captured value of a straight-line function. -/
def captureValue (input lowered : ExitSource) (map : Value → Value) (site : Nat)
    (operation : RecoveryOperation) : Except Status Value := do
  let loweredExit := lowered.guardValue site
  require loweredExit.valid
    ⟨.invalidArgument, "captured recovery value has no compiled guard", site⟩
  let loweredValue := map operation.sourceValue
  require (lowered.available loweredValue loweredExit)
    ⟨.codeGenerationFailed, "optimizer did not retain a captured recovery value", site⟩
  require (input.valueType operation.sourceValue = operation.type ∧
      lowered.valueType loweredValue = operation.type)
    ⟨.codeGenerationFailed, "captured recovery value changed type during optimization", site⟩
  pure loweredValue

/-- The lowered value of one captured value of a control-flow function. -/
def captureControlValue (input lowered : ExitSource) (map : Value → Value) (site : Nat)
    (operation : RecoveryOperation) : Except Status Value := do
  let inputExit := input.guardValue site
  let loweredExit := lowered.guardValue site
  require (inputExit.valid ∧ input.available operation.sourceValue inputExit)
    ⟨.invalidArgument, "CFG captured recovery value does not dominate its guard", site⟩
  require (input.valueType operation.sourceValue = operation.type)
    ⟨.invalidArgument, "CFG captured recovery value type does not match SSA", site⟩
  let loweredValue := map operation.sourceValue
  require (loweredExit.valid ∧ lowered.available loweredValue loweredExit)
    ⟨.codeGenerationFailed, "CFG optimizer did not retain a captured recovery value", site⟩
  require (lowered.valueType loweredValue = operation.type)
    ⟨.codeGenerationFailed, "CFG captured recovery value changed type during optimization", site⟩
  pure loweredValue

/-- What the loop over the records has collected. -/
structure CaptureState where
  requirements : StackMapRequirements := []
  bindings : List CaptureBinding := []

/-- One operation: the values that the stack map of the site needs, and the bindings. -/
def requireCapture (capture : RecoveryOperation → Except Status Value) (site : Nat)
    (operation : RecoveryOperation) (state : List Value × List CaptureBinding) :
    Except Status (List Value × List CaptureBinding) :=
  if operation.source ≠ some .capturedValue then .ok state
  else do
    let loweredValue ← capture operation
    pure
      (if loweredValue ∈ state.1 then state.1 else state.1 ++ [loweredValue],
        state.2 ++ [⟨site, operation.sourceValue, loweredValue⟩])

/-- Requires the captures of a record. -/
def requireRecord (capture : Nat → RecoveryOperation → Except Status Value)
    (record : Runtime.DeoptimizationRecord) (state : CaptureState) :
    Except Status CaptureState := do
  let (values, bindings) ← foldExcept (fun _ => requireCapture (capture record.site) record.site) 0
    record.recovery ([], state.bindings)
  pure
    { requirements :=
        if values = [] then state.requirements
        else state.requirements ++ [⟨record.site, values⟩]
      bindings := bindings }

/-- `capture` is `captureValue` or `captureControlValue`. -/
def prepareStackMapRequirements (capture : Nat → RecoveryOperation → Except Status Value)
    (table : DeoptimizationTable) : Except Status CaptureState :=
  foldExcept (fun _ => requireRecord capture) 0 table.records {}

/-! ## Stack maps -/

/-- What a stack map is for. -/
inductive StackMapKind
  | safepoint | guard
  deriving DecidableEq, Repr

/-- Where a live value is found in the frame. -/
structure StackMapValue where
  value : Value
  type : ValueType
  frameOffset : Nat
  deriving DecidableEq, Repr

/-- The live values at an exit. -/
structure StackMapRecord where
  site : Nat
  nativeOffset : Nat
  frameSize : Nat
  kind : StackMapKind
  liveValues : List StackMapValue
  deriving DecidableEq, Repr

/-- What a back end decides about the stack maps: the live values of each exit, where its code is,
and where the frame keeps values. -/
structure StackMapLayout where
  liveValuesByNode : Nat → List Value
  nativeOffset : Nat → Nat
  frameSize : Nat
  frameOffset : Value → Nat

/-- The stack map of an exit. -/
def makeStackMapRecord (f : ExitSource) (layout : StackMapLayout) (index : Nat) (n : ExitNode) :
    StackMapRecord where
  site := n.site
  nativeOffset := layout.nativeOffset index
  frameSize := layout.frameSize
  kind := if n.operation = some .safepoint then .safepoint else .guard
  liveValues := (layout.liveValuesByNode index).map fun value =>
    ⟨value, f.valueType value, layout.frameOffset value⟩

/-- A stack map for each runtime exit, in the order in which the back end emits the nodes. -/
def stackMaps (f : ExitSource) (layout : StackMapLayout) (order : List Nat) :
    List StackMapRecord :=
  order.filterMap fun index =>
    (f.nodes[index]?.filter (·.isRuntimeExit)).map (makeStackMapRecord f layout index)

/-! ## Resolving the captures -/

/-- The index of a captured value in the stack map of its site. -/
def resolveOperation (bindings : List CaptureBinding) (maps : List StackMapRecord) (site : Nat)
    (operation : RecoveryOperation) : Except Status RecoveryOperation :=
  if operation.source ≠ some .capturedValue then .ok operation
  else
    match bindings.find? fun b => b.site = site ∧ b.source = operation.sourceValue,
        maps.find? fun m => m.site = site with
    | some binding, some stackMap =>
        let index := stackMap.liveValues.findIdx fun v => v.value = binding.lowered
        if (stackMap.liveValues[index]?.map (·.type)) ≠ some operation.type then
          .error ⟨.codeGenerationFailed,
            "captured recovery value is missing from its native stack map", site⟩
        else .ok { operation with captureIndex := index }
    | _, _ =>
        .error ⟨.codeGenerationFailed, "captured recovery value has no native stack map", site⟩

/-- Resolves the captures of a record. -/
def resolveRecord (bindings : List CaptureBinding) (maps : List StackMapRecord)
    (record : Runtime.DeoptimizationRecord) (resolved : DeoptimizationTable) :
    Except Status DeoptimizationTable := do
  let recovery ← record.recovery.mapM (resolveOperation bindings maps record.site)
  resolved.add { record with recovery := recovery } true

/-- Resolves the captures of a table, or fails. -/
def resolveDeoptimizationCaptures (table : DeoptimizationTable) (bindings : List CaptureBinding)
    (maps : List StackMapRecord) : Except Status DeoptimizationTable :=
  if bindings = [] then .ok table
  else foldExcept (fun _ => resolveRecord bindings maps) 0 table.records {}

/-! ## The two kinds of functions -/

/-- What differs between the kinds. -/
structure FunctionKind (F : Type) where
  verify : F → Except Status Unit
  exitSource : F → ExitSource
  /-- The nodes in the order in which the back ends emit them. -/
  emissionOrder : F → List Nat
  messages : ExitMessages
  capture : ExitSource → ExitSource → (Value → Value) → Nat → RecoveryOperation →
    Except Status Value

/-- What the metadata sees of a node. -/
def exitNode {Op : Type} (operation? : Op → Option Operation) (n : NodeOf Op) : ExitNode :=
  ⟨operation? n.opcode, n.immediate, n.type⟩

/-- Straight-line functions as the metadata sees them. -/
def straightLine : FunctionKind Function where
  verify := Function.verify
  exitSource f :=
    { parameterTypes := f.parameterTypes
      nodes := f.nodes.map (exitNode Opcode.operation?)
      valueType := f.valueType
      available := fun value exit => value.valid ∧ value.index < exit.index }
  emissionOrder f := List.range f.nodes.length
  messages :=
    { needsGuard := "captured recovery values require a native guard site"
      unavailable := "captured recovery value is unavailable at its guard"
      mistyped := "captured recovery value type does not match SSA"
      unknownSite := "deoptimization metadata does not identify an exit site"
      sharedSite := "assumption and runtime exit sites must be distinct" }
  capture := captureValue

/-- The block and the position of each value. -/
def instructionOwners (f : ControlFlowFunction) : Owners :=
  f.blocks.zipIdx.foldl (fun owners (block, blockIndex) =>
    block.instructions.zipIdx.foldl (fun owners (instruction, position) =>
      owners.set instruction.index (some (blockIndex, position))) owners)
    (List.replicate f.nodes.length none)

/-- A value is computed before an exit: earlier in the same block, or in a block that dominates
the one of the exit. -/
def controlValueAvailable (f : ControlFlowFunction) (value exit : Value) : Bool :=
  decide (f.validValue value ∧ f.validValue exit) &&
    match (instructionOwners f).getD value.index none,
        (instructionOwners f).getD exit.index none with
    | some (valueBlock, valuePosition), some (exitBlock, exitPosition) =>
        if valueBlock = exitBlock then valuePosition < exitPosition
        else (f.dominates.getD exitBlock []).getD valueBlock false
    | _, _ => false

/-- Graphs as the metadata sees them. -/
def controlFlow : FunctionKind ControlFlowFunction where
  verify := ControlFlowFunction.verify
  exitSource f :=
    { parameterTypes := f.parameterTypes
      nodes := f.nodes.map (exitNode ControlOpcode.operation?)
      valueType := f.valueType
      available := controlValueAvailable f }
  emissionOrder f := f.blocks.flatMap fun block => block.instructions.map (·.index)
  messages :=
    { needsGuard := "CFG captured recovery values require a native guard site"
      unavailable := "CFG captured recovery value does not dominate its guard"
      mistyped := "CFG captured recovery value type does not match SSA"
      unknownSite := "CFG deoptimization metadata does not identify an exit site"
      sharedSite := "assumption and CFG runtime exit sites must be distinct" }
  capture := captureControlValue

/-! ## Compiling -/

/-- The levels of compilation. -/
inductive OptimizationLevel
  | baseline | optimized
  deriving DecidableEq, Repr

/-- What the compiler calls: the optimizer, the capability analysis of a verified function, and the
back end. -/
structure CompilerPasses (F : Type) where
  /-- The optimized function, with the value that each value of the input has become. -/
  optimize : F → List OptimizationExitState → Except Status (F × List Value)
  analyzeCapabilities : F → Except Status Unit
  lower : F → StackMapRequirements → Except Status StackMapLayout

/-- What a compilation leaves about its exits. -/
structure CompiledExits (F : Type) where
  lowered : F
  valueMap : Value → Value
  deoptimization : DeoptimizationTable
  stackMaps : List StackMapRecord

/-- `OptimizationResult::map` -/
def mappedValue (mapping : List Value) (value : Value) : Value :=
  if value.valid then mapping.getD value.index .invalid else .invalid

variable {F : Type}

/-- The function to lower, with the mapping of its values; the level is `none` for a byte that
names none. -/
def optimizeAt (passes : CompilerPasses F) (level : Option OptimizationLevel) (function : F)
    (states : List OptimizationExitState) : Except Status (F × (Value → Value)) :=
  match level with
  | some .baseline => .ok (function, id)
  | some .optimized => do
      let (optimized, mapping) ← passes.optimize function states
      pure (optimized, mappedValue mapping)
  | none => .error ⟨.invalidArgument, "unknown compiler optimization level", 0⟩

/-- Compiles a function with the records that were requested. -/
def compile (kind : FunctionKind F) (passes : CompilerPasses F) (level : Option OptimizationLevel)
    (function : F) (requested : DeoptimizationTable) (assumptions : AssumptionSet)
    (valid : Token → Bool) : Except Status (CompiledExits F) := do
  kind.verify function
  let input := kind.exitSource function
  let states ← prepareOptimizationExitStates kind.messages input requested
  let (loweredFunction, map) ← optimizeAt passes level function states
  -- `preflight_capabilities` verifies the function before it analyses it
  kind.verify loweredFunction
  passes.analyzeCapabilities loweredFunction
  let lowered := kind.exitSource loweredFunction
  let table ← prepareDeoptimization kind.messages input lowered requested assumptions valid
  let captures ← prepareStackMapRequirements (kind.capture input lowered map) table
  let layout ← passes.lower loweredFunction captures.requirements
  let maps := stackMaps lowered layout (kind.emissionOrder loweredFunction)
  let resolved ← resolveDeoptimizationCaptures table captures.bindings maps
  pure ⟨loweredFunction, map, resolved, maps⟩

/-! ## Distinct sites -/

/-- If each runtime exit finds its site unused, the sites are distinct. -/
lemma sitesDistinct_of_unused {Op : Type} {operation? : Op → Option Operation}
    {nodes : List (NodeOf Op)} {f : ExitSource} (hnodes : f.nodes = nodes.map (exitNode operation?))
    (h : ∀ (k : Nat) (n : NodeOf Op), nodes[k]? = some n →
      (operation? n.opcode).any (·.isRuntimeExit) = true →
      ∀ previous ∈ nodes.take k, ¬ ((operation? previous.opcode).any (·.isRuntimeExit) = true ∧
        previous.immediate = n.immediate)) : f.SitesDistinct := by
  rw [ExitSource.SitesDistinct, hnodes, List.pairwise_map, List.pairwise_iff_getElem]
  intro i j hi hj hij hexit hexit' hsite
  apply h j _ (List.getElem?_eq_getElem hj) hexit' nodes[i]
  · exact List.mem_take_iff_getElem.mpr ⟨i, by omega, rfl⟩
  · exact ⟨hexit, BitVec.eq_of_toNat_eq hsite⟩

/-- A verified function has distinct sites. -/
lemma sitesDistinct_straightLine {f : Function} (h : f.verify = .ok ()) :
    (straightLine.exitSource f).SitesDistinct := by
  have hverified := Function.verify_eq_ok.mp h
  apply sitesDistinct_of_unused rfl
  intro k n hn hexit
  have hnode := hverified.node k n hn
  by_cases hk : k < f.parameterCount
  · rw [(hnode.parameter hk).1] at hexit
    cases hexit
  · obtain ⟨o, ho, -, -, hsite⟩ := hnode.operation (not_lt.mp hk)
    rw [ho] at hexit
    exact hsite (by simpa [Opcode.operation?] using hexit)

/-- A verified graph has distinct sites. -/
lemma sitesDistinct_controlFlow {f : ControlFlowFunction} (h : f.verify = .ok ()) :
    (controlFlow.exitSource f).SitesDistinct := by
  have hverified := ControlFlowFunction.verify_verified h
  apply sitesDistinct_of_unused rfl
  intro k n hn hexit
  obtain ⟨b, i, block, v, hblock, hv, rfl⟩ :=
    hverified.owned.total (List.getElem?_eq_some_iff.mp hn).1
  by_cases hi : i < block.parameters.length
  · obtain ⟨n', hn', hnode⟩ := (hverified.owned.block hblock).instruction i v hv
    obtain rfl := Option.some.inj (hn.symm.trans hn')
    rw [(hnode.parameter hi).2.1] at hexit
    unfold ControlFlowFunction.expectedParameter at hexit
    split at hexit <;> cases hexit
  · obtain ⟨n', o, hnode⟩ := hverified.node hblock (not_lt.mp hi) hv
    obtain rfl := Option.some.inj (hn.symm.trans hnode.node)
    rw [hnode.opcode] at hexit
    exact hnode.site (by simpa [ControlOpcode.operation?] using hexit)

/-- A site has one stack map. -/
lemma stackMap_unique {f : ExitSource} (hdistinct : f.SitesDistinct) {layout : StackMapLayout}
    {order : List Nat} {a b : StackMapRecord} (ha : a ∈ stackMaps f layout order)
    (hb : b ∈ stackMaps f layout order) (hsite : a.site = b.site) : a = b := by
  have hfrom : ∀ m ∈ stackMaps f layout order, ∃ (k : Nat) (n : ExitNode), f.nodes[k]? = some n ∧
      n.isRuntimeExit = true ∧ m = makeStackMapRecord f layout k n := by
    intro m hm
    obtain ⟨k, -, hk⟩ := List.mem_filterMap.mp hm
    obtain ⟨n, hn, rfl⟩ := Option.map_eq_some_iff.mp hk
    obtain ⟨hn, hexit⟩ := Option.filter_eq_some_iff.mp hn
    exact ⟨k, n, hn, hexit, rfl⟩
  obtain ⟨k, n, hn, hexit, rfl⟩ := hfrom a ha
  obtain ⟨l, m, hm, hexit', rfl⟩ := hfrom b hb
  obtain rfl := ExitSource.eq_of_site_eq hdistinct hn hm hexit hexit' hsite
  rw [Option.some.inj (hn.symm.trans hm)]

/-! ## The records of a table -/

/-- The record of a guard: the one supplied for its site, else the default. -/
def guardRecord (input : ExitSource) (requested : DeoptimizationTable) (n : ExitNode) :
    Runtime.DeoptimizationRecord :=
  (requested.find n.site).getD (guardFallback input n)

/-- The record of an assumption: the one supplied for its site, else the default. -/
def dependencyRecord (f : ExitSource) (requested : DeoptimizationTable)
    (dependency : AssumptionDependency) : Runtime.DeoptimizationRecord :=
  (requested.find dependency.site).getD (assumptionFallback f dependency)

/-- The records of the guards that are left and of the assumptions. -/
def collectedRecords (input lowered : ExitSource) (requested : DeoptimizationTable)
    (assumptions : AssumptionSet) : List Runtime.DeoptimizationRecord :=
  (lowered.nodes.filter (·.isNonzeroGuard)).map (guardRecord input requested) ++
    assumptions.dependencies.map (dependencyRecord input requested)

/-- The record of a guard is of its site. -/
lemma site_guardRecord (input : ExitSource) (requested : DeoptimizationTable) (n : ExitNode) :
    (guardRecord input requested n).site = n.site := by
  unfold guardRecord
  cases hfind : requested.find n.site with
  | none => rfl
  | some supplied => exact (DeoptimizationTable.find_eq_some.mp hfind).2

/-- The record of a dependency is of its site. -/
lemma site_dependencyRecord (f : ExitSource) (requested : DeoptimizationTable)
    (dependency : AssumptionDependency) :
    (dependencyRecord f requested dependency).site = dependency.site := by
  unfold dependencyRecord
  cases hfind : requested.find dependency.site with
  | none => rfl
  | some supplied => exact (DeoptimizationTable.find_eq_some.mp hfind).2

/-- There is one record for each guard that is left and one for each assumption. -/
lemma sites_collectedRecords (input lowered : ExitSource) (requested : DeoptimizationTable)
    (assumptions : AssumptionSet) :
    (collectedRecords input lowered requested assumptions).map (·.site) =
      lowered.guardSites ++ assumptions.dependencies.map (·.site) := by
  simp [collectedRecords, ExitSource.guardSites, site_guardRecord, site_dependencyRecord,
    Function.comp_def]

/-- **Step.** A guard with a new site adds its record, and any other node none. -/
lemma records_appendGuard {input : ExitSource} {requested result result' : DeoptimizationTable}
    {n : ExitNode}
    (hnew : n.isNonzeroGuard = true → ∀ record ∈ result.records, record.site ≠ n.site)
    (h : appendGuard input requested n result = .ok result') :
    result'.records =
      result.records ++ ([n].filter (·.isNonzeroGuard)).map (guardRecord input requested) := by
  unfold appendGuard at h
  by_cases hguard : n.isNonzeroGuard = true
  · have hnone : result.find n.site = none := DeoptimizationTable.find_eq_none.mpr (hnew hguard)
    rw [if_neg (not_not.mpr hguard), hnone, if_neg (by simp)] at h
    obtain ⟨-, -, -, hrecords⟩ := DeoptimizationTable.add_eq_ok.mp h
    rw [hrecords, List.filter_cons_of_pos hguard]
    rfl
  · rw [if_pos hguard, Except.ok.injEq] at h
    rw [← h, List.filter_cons_of_neg hguard]
    simp

/-- **Run.** The loop over the nodes adds the record of each guard. -/
lemma records_guards {input : ExitSource} {requested : DeoptimizationTable}
    {nodes : List ExitNode} {i : Nat} {result result' : DeoptimizationTable}
    (hnodup : ((nodes.filter (·.isNonzeroGuard)).map (·.site)).Nodup)
    (hnew : ∀ n ∈ nodes.filter (·.isNonzeroGuard), ∀ record ∈ result.records,
      record.site ≠ n.site)
    (h : foldExcept (fun _ => appendGuard input requested) i nodes result = .ok result') :
    result'.records =
      result.records ++ (nodes.filter (·.isNonzeroGuard)).map (guardRecord input requested) := by
  induction nodes generalizing i result with
  | nil =>
      rw [foldExcept_nil, Except.ok.injEq] at h
      rw [← h]
      simp
  | cons n nodes ih =>
      obtain ⟨middle, hstep, hrest⟩ := foldExcept_cons_eq_ok.mp h
      have hsplit : (n :: nodes).filter (·.isNonzeroGuard) =
          [n].filter (·.isNonzeroGuard) ++ nodes.filter (·.isNonzeroGuard) := by
        rw [← List.filter_append]
        rfl
      rw [hsplit] at hnodup hnew
      rw [List.map_append] at hnodup
      obtain ⟨-, hnodup', hdisjoint⟩ := List.nodup_append.mp hnodup
      have hmiddle := records_appendGuard
        (fun hguard => hnew n (List.mem_append_left _ (by simp [hguard]))) hstep
      rw [ih hnodup' ?_ hrest, hmiddle, hsplit, List.map_append, List.append_assoc]
      intro m hm record hrecord
      rw [hmiddle, List.mem_append] at hrecord
      rcases hrecord with hold | hfirst
      · exact hnew m (List.mem_append_right _ hm) record hold
      · obtain ⟨first, hmem, rfl⟩ := List.mem_map.mp hfirst
        rw [site_guardRecord]
        exact hdisjoint _ (List.mem_map_of_mem hmem) _ (List.mem_map_of_mem hm)

/-- **Step.** A dependency adds its record. -/
lemma records_appendDependency {f : ExitSource} {requested result result' : DeoptimizationTable}
    {dependency : AssumptionDependency}
    (h : appendDependency f requested dependency result = .ok result') :
    result'.records = result.records ++ [dependencyRecord f requested dependency] := by
  unfold appendDependency at h
  unfold dependencyRecord
  cases hfind : requested.find dependency.site with
  | none =>
      rw [hfind] at h
      exact (DeoptimizationTable.add_eq_ok.mp h).2.2.2
  | some supplied =>
      rw [hfind] at h
      exact (DeoptimizationTable.add_eq_ok.mp (require_bind_eq_ok.mp h).2).2.2.2

/-- **Run.** The loop over the dependencies adds the record of each. -/
lemma records_dependencies {f : ExitSource} {requested : DeoptimizationTable}
    {dependencies : List AssumptionDependency} {i : Nat} {result result' : DeoptimizationTable}
    (h : foldExcept (fun _ => appendDependency f requested) i dependencies result = .ok result') :
    result'.records = result.records ++ dependencies.map (dependencyRecord f requested) := by
  induction dependencies generalizing i result with
  | nil =>
      rw [foldExcept_nil, Except.ok.injEq] at h
      rw [← h]
      simp
  | cons dependency dependencies ih =>
      obtain ⟨middle, hstep, hrest⟩ := foldExcept_cons_eq_ok.mp h
      rw [ih hrest, records_appendDependency hstep, List.map_cons, List.append_assoc]
      rfl

/-- **Collecting** gives the record of each guard of the lowered function and of each assumption,
and no others. -/
lemma records_prepareDeoptimization {messages : ExitMessages} {input lowered : ExitSource}
    {requested table : DeoptimizationTable} {assumptions : AssumptionSet} {valid : Token → Bool}
    (hdistinct : lowered.SitesDistinct)
    (h : prepareDeoptimization messages input lowered requested assumptions valid = .ok table) :
    table.records = collectedRecords input lowered requested assumptions := by
  unfold prepareDeoptimization at h
  simp only [bind_eq_ok] at h
  obtain ⟨_, -, _, -, _, -, result, hguards, hdependencies⟩ := h
  have hempty : ({} : DeoptimizationTable).records = [] := rfl
  have hresult := records_guards (ExitSource.nodup_guardSites hdistinct)
    (by rw [hempty]; exact fun _ _ _ h => absurd h List.not_mem_nil) hguards
  unfold appendAssumptionDeoptimization at hdependencies
  cases hinvalid : assumptions.firstInvalid valid with
  | some invalid =>
      rw [hinvalid] at hdependencies
      cases hdependencies
  | none =>
      rw [hinvalid] at hdependencies
      rw [records_dependencies hdependencies, hresult, hempty]
      rfl

/-! ## The captures of a table -/

/-- What the loops over the records keep: each binding leads to the mapped value, and there is none
only as long as nothing is captured. -/
structure CaptureBound (map : Value → Value) (bindings : List CaptureBinding)
    (operations : List RecoveryOperation) : Prop where
  mapped : ∀ binding ∈ bindings, binding.lowered = map binding.source
  captured : bindings = [] → ∀ operation ∈ operations, operation.source ≠ some .capturedValue

/-- A required capture is bound to the value it is mapped to. -/
lemma bound_requireCapture {map : Value → Value}
    {capture : RecoveryOperation → Except Status Value}
    (hcapture : ∀ operation value, capture operation = .ok value →
      value = map operation.sourceValue)
    {site : Nat} {operation : RecoveryOperation} {before : List RecoveryOperation}
    {state state' : List Value × List CaptureBinding} (hbound : CaptureBound map state.2 before)
    (h : requireCapture capture site operation state = .ok state') :
    CaptureBound map state'.2 (before ++ [operation]) := by
  unfold requireCapture at h
  by_cases hsource : operation.source = some .capturedValue
  · rw [if_neg (not_not.mpr hsource), bind_eq_ok] at h
    obtain ⟨value, hvalue, hstate⟩ := h
    obtain rfl := pure_eq_ok.mp hstate
    constructor
    · intro binding hbinding
      rcases List.mem_append.mp hbinding with hold | hnew
      · exact hbound.mapped binding hold
      · obtain rfl := List.mem_singleton.mp hnew
        exact hcapture operation value hvalue
    · intro hnil
      exact absurd hnil (List.append_ne_nil_of_right_ne_nil _ (List.cons_ne_nil _ _))
  · rw [if_pos hsource, Except.ok.injEq] at h
    subst h
    refine ⟨hbound.mapped, ?_⟩
    intro hnil other hother
    rcases List.mem_append.mp hother with hold | hnew
    · exact hbound.captured hnil other hold
    · obtain rfl := List.mem_singleton.mp hnew
      exact hsource

/-- The required captures of a record are bound. -/
lemma bound_requireCaptures {map : Value → Value}
    {capture : RecoveryOperation → Except Status Value}
    (hcapture : ∀ operation value, capture operation = .ok value →
      value = map operation.sourceValue)
    {site : Nat} {operations before : List RecoveryOperation} {i : Nat}
    {state state' : List Value × List CaptureBinding} (hbound : CaptureBound map state.2 before)
    (h : foldExcept (fun _ => requireCapture capture site) i operations state = .ok state') :
    CaptureBound map state'.2 (before ++ operations) := by
  induction operations generalizing i state before with
  | nil =>
      rw [foldExcept_nil, Except.ok.injEq] at h
      rw [← h, List.append_nil]
      exact hbound
  | cons operation operations ih =>
      obtain ⟨middle, hstep, hrest⟩ := foldExcept_cons_eq_ok.mp h
      have := ih (bound_requireCapture hcapture hbound hstep) hrest
      rwa [List.append_assoc, List.singleton_append] at this

/-- The required captures of all records are bound. -/
lemma bound_requireRecords {map : Value → Value}
    {capture : Nat → RecoveryOperation → Except Status Value}
    (hcapture : ∀ site operation value, capture site operation = .ok value →
      value = map operation.sourceValue)
    {records : List Runtime.DeoptimizationRecord} {before : List RecoveryOperation} {i : Nat}
    {state state' : CaptureState} (hbound : CaptureBound map state.bindings before)
    (h : foldExcept (fun _ => requireRecord capture) i records state = .ok state') :
    CaptureBound map state'.bindings (before ++ records.flatMap (·.recovery)) := by
  induction records generalizing i state before with
  | nil =>
      rw [foldExcept_nil, Except.ok.injEq] at h
      rw [← h, List.flatMap_nil, List.append_nil]
      exact hbound
  | cons record records ih =>
      obtain ⟨middle, hstep, hrest⟩ := foldExcept_cons_eq_ok.mp h
      unfold requireRecord at hstep
      rw [bind_eq_ok] at hstep
      obtain ⟨⟨values, bindings⟩, hoperations, hmiddle⟩ := hstep
      obtain rfl := pure_eq_ok.mp hmiddle
      have hfirst := bound_requireCaptures (hcapture record.site) hbound hoperations
      have := ih hfirst hrest
      rwa [List.append_assoc, ← List.flatMap_cons] at this

/-- The capture index of an operation leads to the lowered value in the stack map of the site. -/
def CaptureResolved (map : Value → Value) (maps : List StackMapRecord) (site : Nat)
    (operation : RecoveryOperation) : Prop :=
  ∃ stackMap ∈ maps, stackMap.site = site ∧
    ∃ live, stackMap.liveValues[operation.captureIndex]? = some live ∧
      live.value = map operation.sourceValue ∧ live.type = operation.type

/-- What resolving makes of an operation: only the index of a captured value is new. -/
structure OperationKept (operation operation' : RecoveryOperation) : Prop where
  same : operation' = { operation with captureIndex := operation'.captureIndex }
  uncaptured : operation.source ≠ some .capturedValue → operation' = operation

/-- What resolving makes of a record: its operations are kept, and all else is as it was. -/
structure RecordKept (record record' : Runtime.DeoptimizationRecord) : Prop where
  same : record' = { record with recovery := record'.recovery }
  recovery : List.Forall₂ OperationKept record.recovery record'.recovery

lemma OperationKept.refl (operation : RecoveryOperation) : OperationKept operation operation :=
  ⟨rfl, fun _ => rfl⟩

lemma RecordKept.refl (record : Runtime.DeoptimizationRecord) : RecordKept record record :=
  ⟨rfl, List.forall₂_same.mpr fun operation _ => .refl operation⟩

/-- The records keep their sites. -/
lemma RecordKept.sites {records records' : List Runtime.DeoptimizationRecord}
    (h : List.Forall₂ RecordKept records records') :
    records'.map (·.site) = records.map (·.site) := by
  induction h with
  | nil => rfl
  | cons hkept _ ih => rw [List.map_cons, List.map_cons, ih, hkept.same]

/-- A resolved operation is kept, and captures what the operation did. -/
lemma resolveOperation_ok {map : Value → Value} {bindings : List CaptureBinding}
    {maps : List StackMapRecord}
    (hmapped : ∀ binding ∈ bindings, binding.lowered = map binding.source) {site : Nat}
    {operation operation' : RecoveryOperation}
    (h : resolveOperation bindings maps site operation = .ok operation') :
    OperationKept operation operation' ∧ (operation'.source = some .capturedValue →
      CaptureResolved map maps site operation') := by
  unfold resolveOperation at h
  by_cases hsource : operation.source = some .capturedValue
  · rw [if_neg (not_not.mpr hsource)] at h
    split at h
    next binding stackMap hbinding hstackMap =>
      dsimp only at h
      split at h
      · cases h
      next htype =>
        obtain rfl := Except.ok.inj h
        rw [not_not] at htype
        obtain ⟨live, hlive, hlivetype⟩ := Option.map_eq_some_iff.mp htype
        obtain ⟨-, hsite⟩ : binding.site = site ∧ binding.source = operation.sourceValue := by
          simpa using List.find?_some hbinding
        refine ⟨⟨rfl, fun hother => absurd hsource hother⟩, fun _ => ?_⟩
        refine ⟨stackMap, List.mem_of_find?_eq_some hstackMap,
          by simpa using List.find?_some hstackMap, live, hlive, ?_, hlivetype⟩
        obtain ⟨hlt, hget⟩ := List.getElem?_eq_some_iff.mp hlive
        have hvalue : live.value = binding.lowered := by
          rw [← hget]
          simpa using List.findIdx_getElem (w := hlt)
        rw [hvalue, hmapped binding (List.mem_of_find?_eq_some hbinding), hsite]
    · cases h
  · rw [if_pos hsource, Except.ok.injEq] at h
    subst h
    exact ⟨.refl operation, fun hcaptured => absurd hcaptured hsource⟩

/-- **Step.** Resolving a record adds it, kept and resolved. -/
lemma resolveRecord_ok {map : Value → Value} {bindings : List CaptureBinding}
    {maps : List StackMapRecord}
    (hmapped : ∀ binding ∈ bindings, binding.lowered = map binding.source)
    {record : Runtime.DeoptimizationRecord} {resolved resolved' : DeoptimizationTable}
    (h : resolveRecord bindings maps record resolved = .ok resolved') :
    ∃ record', resolved'.records = resolved.records ++ [record'] ∧ RecordKept record record' ∧
      ∀ operation ∈ record'.recovery, operation.source = some .capturedValue →
        CaptureResolved map maps record'.site operation := by
  unfold resolveRecord at h
  rw [bind_eq_ok] at h
  obtain ⟨recovery, hrecovery, hadd⟩ := h
  obtain ⟨-, -, -, hrecords⟩ := DeoptimizationTable.add_eq_ok.mp hadd
  have hresolved := mapM_eq_ok.mp hrecovery
  refine ⟨_, hrecords, ⟨rfl, hresolved.imp fun _ _ h => (resolveOperation_ok hmapped h).1⟩, ?_⟩
  intro operation hoperation
  obtain ⟨before, -, hbefore⟩ := exists_mem_right (List.Forall₂.flip hresolved) hoperation
  exact (resolveOperation_ok hmapped hbefore).2

/-- **Run.** Resolving keeps the records, and resolves every captured value. -/
lemma resolveRecords_ok {map : Value → Value} {bindings : List CaptureBinding}
    {maps : List StackMapRecord}
    (hmapped : ∀ binding ∈ bindings, binding.lowered = map binding.source)
    {records : List Runtime.DeoptimizationRecord} {i : Nat}
    {resolved resolved' : DeoptimizationTable}
    (h : foldExcept (fun _ => resolveRecord bindings maps) i records resolved = .ok resolved') :
    ∃ records', resolved'.records = resolved.records ++ records' ∧
      List.Forall₂ RecordKept records records' ∧
      ∀ record ∈ records', ∀ operation ∈ record.recovery,
        operation.source = some .capturedValue →
          CaptureResolved map maps record.site operation := by
  induction records generalizing i resolved with
  | nil =>
      rw [foldExcept_nil, Except.ok.injEq] at h
      subst h
      exact ⟨[], by simp, .nil, by simp⟩
  | cons record records ih =>
      obtain ⟨middle, hstep, hrest⟩ := foldExcept_cons_eq_ok.mp h
      obtain ⟨record', hmiddle, hkept, hcaptured⟩ := resolveRecord_ok hmapped hstep
      obtain ⟨records', hresolved', hkept', hcaptured'⟩ := ih hrest
      refine ⟨record' :: records', ?_, .cons hkept hkept', ?_⟩
      · rw [hresolved', hmiddle, List.append_assoc]
        rfl
      · exact List.forall_mem_cons.mpr ⟨hcaptured, hcaptured'⟩

/-- What the metadata of a compilation satisfies: one record for each guard that is left and one
for each assumption, in this order and no others, all sites distinct; each is the record supplied
for its site, or the default one, with the indices of its captured values; and each captured value
is at its index in the one stack map of its site, as the value that it has become. -/
structure MetadataComplete (kind : FunctionKind F) (function : F) (requested : DeoptimizationTable)
    (assumptions : AssumptionSet) (result : CompiledExits F) : Prop where
  records : result.deoptimization.records.map (·.site) =
    (kind.exitSource result.lowered).guardSites ++ assumptions.dependencies.map (·.site)
  distinct : ((kind.exitSource result.lowered).guardSites ++
    assumptions.dependencies.map (·.site)).Nodup
  kept : List.Forall₂ RecordKept
    (collectedRecords (kind.exitSource function) (kind.exitSource result.lowered) requested
      assumptions)
    result.deoptimization.records
  captures : ∀ record ∈ result.deoptimization.records, ∀ operation ∈ record.recovery,
    operation.source = some .capturedValue →
      ∃ stackMap ∈ result.stackMaps, stackMap.site = record.site ∧
        (∀ other ∈ result.stackMaps, other.site = record.site → other = stackMap) ∧
        operation.captureIndex < stackMap.liveValues.length ∧
        ∃ live, stackMap.liveValues[operation.captureIndex]? = some live ∧
          live.value = result.valueMap operation.sourceValue ∧ live.type = operation.type

/-- The metadata of a compiled function is complete, for either form. -/
lemma metadataComplete_of_compile {kind : FunctionKind F}
    (hdistinct : ∀ f, kind.verify f = .ok () → (kind.exitSource f).SitesDistinct)
    (hcapture : ∀ input lowered map site operation value,
      kind.capture input lowered map site operation = .ok value → value = map operation.sourceValue)
    {passes : CompilerPasses F} {level : Option OptimizationLevel} {function : F}
    {requested : DeoptimizationTable} {assumptions : AssumptionSet} {valid : Token → Bool}
    {result : CompiledExits F}
    (h : compile kind passes level function requested assumptions valid = .ok result) :
    MetadataComplete kind function requested assumptions result := by
  unfold compile at h
  simp only [bind_eq_ok, pure_eq_ok] at h
  obtain ⟨_, -, states, -, ⟨lowered, map⟩, -, _, hverify, _, -, table, htable, captures, hcaptures,
    layout, -, resolved, hresolved, rfl⟩ := h
  have htable := records_prepareDeoptimization (hdistinct lowered hverify) htable
  have hstart : CaptureBound map ({} : CaptureState).bindings [] := ⟨by simp, by simp⟩
  have hbound : CaptureBound map captures.bindings (table.records.flatMap (·.recovery)) :=
    bound_requireRecords (hcapture _ _ map) hstart hcaptures
  set maps := stackMaps (kind.exitSource lowered) layout (kind.emissionOrder lowered) with hmaps
  obtain ⟨hkept, hcaptured⟩ : List.Forall₂ RecordKept table.records resolved.records ∧
      ∀ record ∈ resolved.records, ∀ operation ∈ record.recovery,
        operation.source = some .capturedValue →
          CaptureResolved map maps record.site operation := by
    unfold resolveDeoptimizationCaptures at hresolved
    by_cases hnil : captures.bindings = []
    · rw [if_pos hnil, Except.ok.injEq] at hresolved
      subst hresolved
      refine ⟨List.forall₂_same.mpr fun record _ => .refl record, ?_⟩
      intro record hrecord operation hoperation hsource
      exact absurd hsource (hbound.captured hnil operation
        (List.mem_flatMap.mpr ⟨record, hrecord, hoperation⟩))
    · rw [if_neg hnil] at hresolved
      obtain ⟨records', hrecords', hkept, hcaptured⟩ := resolveRecords_ok hbound.mapped hresolved
      obtain rfl : resolved.records = records' := hrecords'
      exact ⟨hkept, hcaptured⟩
  have hrecords : resolved.records.map (·.site) =
      (kind.exitSource lowered).guardSites ++ assumptions.dependencies.map (·.site) := by
    rw [RecordKept.sites hkept, htable, sites_collectedRecords]
  refine ⟨hrecords, hrecords ▸ resolved.sites_nodup, htable ▸ hkept, ?_⟩
  intro record hrecord operation hoperation hsource
  obtain ⟨stackMap, hmem, hsite, live, hlive, hvalue, htype⟩ :=
    hcaptured record hrecord operation hoperation hsource
  refine ⟨stackMap, hmem, hsite, ?_, (List.getElem?_eq_some_iff.mp hlive).1, live, hlive, hvalue,
    htype⟩
  intro other hother hothersite
  exact stackMap_unique (hdistinct lowered hverify) hother hmem (hothersite.trans hsite.symm)

/-- **Deoptimization metadata is complete and resolved**, for both kinds of functions, whatever the
optimizer and the back end do. -/
theorem metadata_complete (level : Option OptimizationLevel) (requested : DeoptimizationTable)
    (assumptions : AssumptionSet) (valid : Token → Bool) :
    (∀ (passes : CompilerPasses Function) (function : Function) (result : CompiledExits Function),
      compile straightLine passes level function requested assumptions valid = .ok result →
        MetadataComplete straightLine function requested assumptions result) ∧
    ∀ (passes : CompilerPasses ControlFlowFunction) (function : ControlFlowFunction)
      (result : CompiledExits ControlFlowFunction),
      compile controlFlow passes level function requested assumptions valid = .ok result →
        MetadataComplete controlFlow function requested assumptions result := by
  constructor
  · intro passes function result
    apply metadataComplete_of_compile
    · exact fun f => sitesDistinct_straightLine
    · intro input lowered map site operation value h
      change captureValue input lowered map site operation = .ok value at h
      unfold captureValue at h
      rw [require_bind_eq_ok, require_bind_eq_ok, require_bind_eq_ok] at h
      exact pure_eq_ok.mp h.2.2.2
  · intro passes function result
    apply metadataComplete_of_compile
    · exact fun f => sitesDistinct_controlFlow
    · intro input lowered map site operation value h
      change captureControlValue input lowered map site operation = .ok value at h
      unfold captureControlValue at h
      rw [require_bind_eq_ok, require_bind_eq_ok, require_bind_eq_ok, require_bind_eq_ok] at h
      exact pure_eq_ok.mp h.2.2.2.2

/-- A function that guards its argument, and a record for the guard that captures a constant. -/
def guardFunction : Function where
  parameterTypes := [.word]
  nodes := [
    { opcode := .parameter },
    { opcode := .op .constant, immediate := 7 },
    { opcode := .op .guardWordNonzero, lhs := Value.ofIndex 0, immediate := 5 }]
  returnValue := Value.ofIndex 1

/-- A request that captures a value at the guard. -/
def guardRequest : DeoptimizationTable where
  records := [{ site := 5, recovery := [.capturedValue 3 .word (Value.ofIndex 1)] }]
  wellFormed := by
    intro record hrecord
    obtain rfl := List.mem_singleton.mp hrecord
    exact ⟨by simp, by decide, by decide⟩

/-- Passes that change nothing, and a frame that keeps the first two values at each guard. -/
def guardPasses : CompilerPasses Function where
  optimize := fun f _ => .ok (f, [])
  analyzeCapabilities := fun _ => .ok ()
  lower := fun _ _ =>
    .ok ⟨fun _ => [Value.ofIndex 0, Value.ofIndex 1], fun _ => 0, 16, fun _ => 0⟩

/-- The supplied record is kept, and its captured constant is the second live value of the guard. -/
theorem metadata_complete_guardFunction :
    ∃ result, compile straightLine guardPasses (some .baseline) guardFunction guardRequest {}
        (fun _ => true) = .ok result ∧
      MetadataComplete straightLine guardFunction guardRequest {} result ∧
      result.deoptimization.records = [{
        site := 5
        recovery := [{ RecoveryOperation.capturedValue 3 .word (Value.ofIndex 1) with
          captureIndex := 1 }] }] := by
  have hrecords : (compile straightLine guardPasses (some .baseline) guardFunction guardRequest {}
      (fun _ => true)).map (·.deoptimization.records) = .ok [{
        site := 5
        recovery := [{ RecoveryOperation.capturedValue 3 .word (Value.ofIndex 1) with
          captureIndex := 1 }] }] := by
    decide
  cases hcompile : compile straightLine guardPasses (some .baseline) guardFunction guardRequest {}
      (fun _ => true) with
  | error status =>
      rw [hcompile] at hrecords
      cases hrecords
  | ok result =>
      rw [hcompile] at hrecords
      exact ⟨result, rfl, (metadata_complete (some .baseline) guardRequest {} (fun _ => true)).1
        guardPasses guardFunction result hcompile, Except.ok.inj hrecords⟩

end UniJit.Jit
