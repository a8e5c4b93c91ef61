import UniJit.Ir.InterpreterSafety

/-!
# The configurations of a run

What a run passes through, position by position. In a straight line a configuration is the index of
the next node with the cells and the machine there; in a graph it is a block and a position in it.
`Reached` collects the configurations from the start on, by single instructions and, in a graph,
by edges.

Two facts tie the relation to the interpreters. A run that returns or stops does so from a reached
configuration (`runNodes_reached`, `runBlocks_reached`), so that what holds of the reached
configurations holds of every run, whatever its budget. And a reached configuration of a verified
function has assigned all that its position can read (`Reached.assigned`, `Reached.passed`).
-/

namespace UniJit.Ir

open UniJit.Lib UniJit.Runtime

variable {Op : Type}

/-- A cell write succeeds exactly inside the array with a payload that fits the type. -/
lemma writeCell_eq_ok {cells cells' : Cells} {index : Nat} {type : ValueType} {payload : Payload} :
    writeCell cells index type payload = .ok cells' ↔ index < cells.length ∧
      payload.fits type = true ∧ cells' = cells.set index (some ⟨type, payload⟩) := by
  rw [writeCell, require_bind_eq_ok, require_bind_eq_ok, pure_eq_ok]

/-- What an operation writes, if it does not stop the run. -/
lemma runOperation_writes (host : Host) (texts : Texts) (valueType : Value → ValueType)
    (t : SideTables) (n : NodeOf Op) (o : Operation) (index : Nat) (cells : Cells) :
    Ensures (runOperation host texts valueType t n o index cells) (fun _ => True) fun cells' =>
      ∃ payload, payload.fits n.type = true ∧
        cells' = cells.set index (some ⟨n.type, payload⟩) := by
  unfold runOperation
  refine Ensures.bind Ensures.trivial fun i _ => ?_
  refine Ensures.bind Ensures.trivial fun operands _ => ?_
  refine Ensures.bind Ensures.trivial fun result _ => ?_
  intro m
  split
  · rename_i cells' m' hrun
    cases hwrite : (do
        require (i.yields n.type) .resultType
        writeCell cells index n.type result : Except Fault Cells) with
    | error fault =>
        rw [hwrite] at hrun
        cases hrun
    | ok written =>
        rw [hwrite] at hrun
        obtain rfl : written = cells' := by
          cases hrun
          rfl
        rw [require_bind_eq_ok, writeCell_eq_ok] at hwrite
        obtain ⟨-, -, hfits, rfl⟩ := hwrite
        exact ⟨result, hfits, rfl⟩
  · exact True.intro

/-! ## Straight lines -/

namespace Function

variable {host : Host} {f : Function} {args : List Word} {start : Machine}

/-- What a node writes, if it does not stop the run. -/
lemma runNode_writes {index : Nat} {n : Node} {cells cells' : Cells} {m m' : Machine}
    (hrun : f.runNode host args index n cells m = .ok cells' m') :
    ∃ payload, payload.fits n.type = true ∧
      cells' = cells.set index (some ⟨n.type, payload⟩) := by
  unfold runNode at hrun
  cases hopcode : n.opcode with
  | op o =>
      rw [hopcode] at hrun
      exact (runOperation_writes host texts _ _ _ _ _ _).of_ok hrun
  | parameter =>
      rw [hopcode] at hrun
      cases hwrite : (do
          let argument ← orFault args[n.immediate.toNat]? .parameter
          writeCell cells index n.type (.scalar argument) : Except Fault Cells) with
      | error fault =>
          rw [hwrite] at hrun
          cases hrun
      | ok written =>
          rw [hwrite] at hrun
          obtain rfl : written = cells' := by
            cases hrun
            rfl
          rw [bind_eq_ok] at hwrite
          obtain ⟨argument, -, hwrite⟩ := hwrite
          obtain ⟨-, hfits, rfl⟩ := writeCell_eq_ok.mp hwrite
          exact ⟨.scalar argument, hfits, rfl⟩

/-- The configurations of a run that starts in the machine `start`. -/
inductive Reached (host : Host) (f : Function) (args : List Word) (start : Machine) :
    Nat → Cells → Machine → Prop
  | start : Reached host f args start 0 (List.replicate f.nodes.length none) start
  | node {index : Nat} {n : Node} {cells cells' : Cells} {m m' : Machine}
      (reached : Reached host f args start index cells m) (hn : f.nodes[index]? = some n)
      (hrun : f.runNode host args index n cells m = .ok cells' m') :
      Reached host f args start (index + 1) cells' m'

/-- In a verified function every reached configuration has the cells its position needs. -/
lemma Reached.assigned (verified : f.Verified) (hargs : args.length = f.parameterCount)
    {index : Nat} {cells : Cells} {m : Machine}
    (h : Reached host f args start index cells m) : f.Assigned index cells := by
  induction h with
  | start => exact ⟨by simp, fun k n hk => absurd hk (Nat.not_lt_zero k)⟩
  | node reached hn hrun ih => exact (runNode_ensures host verified hargs hn ih).of_ok hrun

/-- The assigned cells of a configuration have their nodes' types. -/
lemma Reached.typed {index : Nat} {cells : Cells} {m : Machine}
    (h : Reached host f args start index cells m) (k : Nat) (n : Node) (cell : Cell)
    (hn : f.nodes[k]? = some n) (hcell : cells[k]? = some (some cell)) :
    cell.type = n.type ∧ cell.payload.fits n.type = true := by
  induction h with
  | start => simp [List.getElem?_replicate] at hcell
  | node reached hnode hrun ih =>
      obtain ⟨payload, hfits, rfl⟩ := runNode_writes hrun
      rw [List.getElem?_set] at hcell
      split_ifs at hcell with hk hlt
      · subst hk
        obtain rfl := Option.some.inj (hnode.symm.trans hn)
        obtain rfl := Option.some.inj (Option.some.inj hcell)
        exact ⟨rfl, hfits⟩
      · exact ih hcell

/-- **Adequacy**: nodes that run from a reached configuration end in one, or stop in one. -/
lemma runNodes_reached {ns : List Node} {index : Nat} {cells : Cells} {m : Machine}
    (hns : f.nodes.drop index = ns) (h : Reached host f args start index cells m) :
    match f.runNodes host args index ns cells m with
    | .ok cells' m' => Reached host f args start (index + ns.length) cells' m'
    | .error stop m' => ∃ k n cells' m'', Reached host f args start k cells' m'' ∧
        f.nodes[k]? = some n ∧ f.runNode host args k n cells' m'' = .error stop m' := by
  induction ns generalizing index cells m with
  | nil => exact h
  | cons n ns ih =>
      have hn : f.nodes[index]? = some n := by
        have := congrArg (·[0]?) hns
        simpa using this
      have hrest : f.nodes.drop (index + 1) = ns := by
        have := congrArg List.tail hns
        simpa [List.tail_drop] using this
      have hcons : f.runNodes host args index (n :: ns) cells m =
          EStateM.bind (f.runNode host args index n cells)
            (fun cells => f.runNodes host args (index + 1) ns cells) m := rfl
      rw [hcons, EStateM.bind]
      cases hrun : f.runNode host args index n cells m with
      | ok cells' m' =>
          have hnext := ih hrest (.node h hn hrun)
          rwa [List.length_cons, Nat.add_right_comm index, ← Nat.add_assoc] at *
      | error stop m' => exact ⟨index, n, cells, m, h, hn, hrun⟩

end Function

/-! ## Graphs -/

namespace ControlFlowFunction

variable {host : Host} {f : ControlFlowFunction} {args : List Word} {start : Machine}

/-- The configurations of a run that starts in the machine `start`: a block, a position in it, and
the cells and the machine there. -/
inductive Reached (host : Host) (f : ControlFlowFunction) (args : List Word) (start : Machine) :
    Nat → Nat → Cells → Machine → Prop
  | enter {entry : BasicBlock} {cells : Cells}
      (hentry : f.blocks[f.entryBlock.index]? = some entry) (henter : f.enter args = .ok cells) :
      Reached host f args start f.entryBlock.index entry.parameters.length cells start
  | instruction {b i : Nat} {block : BasicBlock} {v : Value} {cells cells' : Cells}
      {m m' : Machine} (reached : Reached host f args start b i cells m)
      (hblock : f.blocks[b]? = some block) (hv : block.instructions[i]? = some v)
      (hrun : f.runInstruction host v cells m = .ok cells' m') :
      Reached host f args start b (i + 1) cells' m'
  | edge {b : Nat} {block target : BasicBlock} {edge : ControlEdge} {cells cells' : Cells}
      {m : Machine} (reached : Reached host f args start b block.instructions.length cells m)
      (hblock : f.blocks[b]? = some block)
      (hterminator : runTerminator block.terminator cells = .ok (.inr edge))
      (htarget : f.blocks[edge.target.index]? = some target)
      (htake : f.takeEdge edge cells = .ok cells') :
      Reached host f args start edge.target.index target.parameters.length cells' m

/-- A reached configuration is past its block's parameters, and has passed what its position can
read. -/
lemma Reached.passed (verified : f.Verified) (hargs : args.length = f.parameterCount)
    {b i : Nat} {cells : Cells} {m : Machine} (h : Reached host f args start b i cells m) :
    f.Passed b i cells ∧ ∀ block, f.blocks[b]? = some block → block.parameters.length ≤ i := by
  induction h with
  | enter hentry henter =>
      obtain ⟨entry', cells', hentry', henter', hpassed⟩ := enter_eq_ok verified hargs
      obtain rfl := Option.some.inj (hentry.symm.trans hentry')
      obtain rfl := Except.ok.inj (henter.symm.trans henter')
      refine ⟨hpassed, fun block hblock => ?_⟩
      obtain rfl := Option.some.inj (hentry.symm.trans hblock)
      exact le_rfl
  | instruction reached hblock hv hrun ih =>
      obtain ⟨hpassed, hparameters⟩ := ih
      refine ⟨?_, fun block' hblock' => Nat.le_succ_of_le (hparameters block' hblock')⟩
      exact (runInstruction_ensures host verified hblock (hparameters _ hblock) hv hpassed).of_ok
        hrun
  | edge reached hblock hterminator htarget htake ih =>
      obtain ⟨hpassed, -⟩ := ih
      obtain ⟨next, hnext, hedges⟩ := runTerminator_eq_ok verified hblock hpassed
      obtain rfl := Except.ok.inj (hterminator.symm.trans hnext)
      obtain ⟨hedge, harguments⟩ := hedges _ rfl
      obtain ⟨target', cells', htarget', htake', hstart⟩ :=
        takeEdge_eq_ok verified hblock hedge harguments hpassed
      obtain rfl := Option.some.inj (htarget.symm.trans htarget')
      obtain rfl := Except.ok.inj (htake.symm.trans htake')
      refine ⟨hstart, fun block' hblock' => ?_⟩
      obtain rfl := Option.some.inj (htarget.symm.trans hblock')
      exact le_rfl

/-- How a run stops in a configuration: an instruction stops it, or the budget is used up at the
start of a block. -/
def StopsAt (host : Host) (f : ControlFlowFunction) (b i : Nat) (cells : Cells) (m : Machine)
    (stop : Stop) (m' : Machine) : Prop :=
  ∃ block, f.blocks[b]? = some block ∧
    ((∃ v, block.instructions[i]? = some v ∧
      f.runInstruction host v cells m = .error stop m') ∨
    i = block.parameters.length ∧ stop = .status budgetExhausted ∧ m' = m)

/-- The body of a block that runs from a reached configuration ends in one, or stops in one. -/
lemma runInstructions_reached {b : Nat} {block : BasicBlock} (hblock : f.blocks[b]? = some block)
    {vs : List Value} {i : Nat} {cells : Cells} {m : Machine}
    (hvs : block.instructions.drop i = vs) (h : Reached host f args start b i cells m) :
    match f.runInstructions host vs cells m with
    | .ok cells' m' => Reached host f args start b (i + vs.length) cells' m'
    | .error stop m' => ∃ j cells' m'', Reached host f args start b j cells' m'' ∧
        f.StopsAt host b j cells' m'' stop m' := by
  induction vs generalizing i cells m with
  | nil => exact h
  | cons v vs ih =>
      have hv : block.instructions[i]? = some v := by
        have := congrArg (·[0]?) hvs
        simpa using this
      have hrest : block.instructions.drop (i + 1) = vs := by
        have := congrArg List.tail hvs
        simpa [List.tail_drop] using this
      have hcons : f.runInstructions host (v :: vs) cells m =
          EStateM.bind (f.runInstruction host v cells)
            (fun cells => f.runInstructions host vs cells) m := rfl
      rw [hcons, EStateM.bind]
      cases hrun : f.runInstruction host v cells m with
      | ok cells' m' =>
          have hnext := ih hrest (.instruction h hblock hv hrun)
          rwa [List.length_cons, Nat.add_right_comm i, ← Nat.add_assoc] at *
      | error stop m' => exact ⟨i, cells, m, h, block, hblock, .inl ⟨v, hv, hrun⟩⟩

section runBlocks

variable {host : Host} {budget : Nat} {current : Block} {block : BasicBlock} {cells cells' : Cells}
  {m m' : Machine}

/-- A block whose instructions stop ends the run there. -/
lemma runBlocks_of_stop {stop : Stop} (hblock : f.blocks[current.index]? = some block)
    (hrun : f.runInstructions host (block.instructions.drop block.parameters.length) cells m =
      .error stop m') :
    f.runBlocks host (budget + 1) current cells m = .error stop m' := by
  rw [runBlocks, hblock]
  show EStateM.bind (f.runInstructions host (block.instructions.drop _) cells) _ m = _
  rw [EStateM.bind, hrun]

/-- A block that returns ends the run with its result. -/
lemma runBlocks_of_return {result : Word} (hblock : f.blocks[current.index]? = some block)
    (hrun : f.runInstructions host (block.instructions.drop block.parameters.length) cells m =
      .ok cells' m') (hreturn : runTerminator block.terminator cells' = .ok (.inl result)) :
    f.runBlocks host (budget + 1) current cells m = .ok result m' := by
  rw [runBlocks, hblock]
  show EStateM.bind (f.runInstructions host (block.instructions.drop _) cells) _ m = _
  rw [EStateM.bind, hrun]
  dsimp only
  rw [hreturn]
  rfl

/-- A block that jumps goes on at the edge's target with one unit less of budget. -/
lemma runBlocks_of_edge {edge : ControlEdge} {taken : Cells}
    (hblock : f.blocks[current.index]? = some block)
    (hrun : f.runInstructions host (block.instructions.drop block.parameters.length) cells m =
      .ok cells' m') (hjump : runTerminator block.terminator cells' = .ok (.inr edge))
    (htake : f.takeEdge edge cells' = .ok taken) :
    f.runBlocks host (budget + 1) current cells m =
      f.runBlocks host budget edge.target taken m' := by
  rw [runBlocks, hblock]
  show EStateM.bind (f.runInstructions host (block.instructions.drop _) cells) _ m = _
  rw [EStateM.bind, hrun]
  dsimp only
  rw [hjump]
  show (ofFault (f.takeEdge edge cells') >>= _ : Run Word) m' = _
  rw [htake]
  rfl

end runBlocks

/-- **Adequacy**: a verified graph that runs from a reached start of a block returns from a reached
configuration, or stops in one. -/
lemma runBlocks_reached (verified : f.Verified) (hargs : args.length = f.parameterCount)
    {budget : Nat} {current : Block} {block : BasicBlock} {cells : Cells} {m : Machine}
    (hblock : f.blocks[current.index]? = some block)
    (h : Reached host f args start current.index block.parameters.length cells m) :
    match f.runBlocks host budget current cells m with
    | .ok result m' => ∃ b last cells', f.blocks[b]? = some last ∧
        Reached host f args start b last.instructions.length cells' m' ∧
        runTerminator last.terminator cells' = .ok (.inl result)
    | .error stop m' => ∃ b i cells' m'', Reached host f args start b i cells' m'' ∧
        f.StopsAt host b i cells' m'' stop m' := by
  induction budget generalizing current block cells m with
  | zero => exact ⟨_, _, cells, m, h, block, hblock, .inr ⟨rfl, rfl, rfl⟩⟩
  | succ budget ih =>
      have hbody := runInstructions_reached hblock rfl h
      cases hrun : f.runInstructions host (block.instructions.drop block.parameters.length)
          cells m with
      | error stop m' =>
          rw [hrun] at hbody
          obtain ⟨j, cells', m'', hreached, hstops⟩ := hbody
          rw [runBlocks_of_stop hblock hrun]
          exact ⟨_, j, cells', m'', hreached, hstops⟩
      | ok cells' m' =>
          rw [hrun] at hbody
          have hlength : block.parameters.length +
              (block.instructions.drop block.parameters.length).length =
                block.instructions.length := by
            have := (verified.owned.block hblock).parameters
            rw [List.length_drop]
            omega
          simp only [hlength] at hbody
          have hpassed := (hbody.passed verified hargs).1
          obtain ⟨next, hnext, hedges⟩ := runTerminator_eq_ok verified hblock hpassed
          cases next with
          | inl result =>
              rw [runBlocks_of_return hblock hrun hnext]
              exact ⟨_, block, cells', hblock, hbody, hnext⟩
          | inr edge =>
              obtain ⟨hedge, harguments⟩ := hedges edge rfl
              obtain ⟨target, taken, htarget, htake, -⟩ :=
                takeEdge_eq_ok verified hblock hedge harguments hpassed
              rw [runBlocks_of_edge hblock hrun hnext htake]
              exact ih htarget (Reached.edge hbody hblock hnext htarget htake)

end ControlFlowFunction

end UniJit.Ir
