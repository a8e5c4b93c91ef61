import UniJit.Ir.InterpreterSafety
import UniJit.Ir.RuntimeExits
import UniJit.Lua.AcceptedCode
import UniJit.Lua.FloatTranslation

/-!
# The guards of translated code

The translation of integer functions emits a guard before a division and nowhere else, and the site
of the guard leads back to the division (`exits_of_compile`). The translation of Float64 functions
has the guard of the step only: it emits none before it and none behind it.

Both are said of an arbitrary property that the calls of the builder keep (`Kept`): every function
of the translators keeps it.
-/

namespace UniJit.Lua

open UniJit.Ir UniJit.Lib UniJit.Runtime

/-! ## Calls of the builder -/

/-- A step of a translation keeps a property of its builder. -/
abbrev Builds {B α : Type} (I : B → Prop) (x : Emit B α) : Prop :=
  Maintains (fun e : Emitter B => I e.builder) x

section calls

variable {B α : Type} {I : B → Prop}

/-- A call of the builder keeps an invariant that the call keeps. -/
lemma builds_build {call : B → α × B} (h : ∀ b, I b → I (call b).2) : Builds I (build call) := by
  intro e a e' he hrun
  cases hrun
  exact h _ he

/-- An attempt keeps an invariant that its call keeps. -/
lemma builds_attempt {call : B → Except Status B}
    (h : ∀ b b', call b = .ok b' → I b → I b') : Builds I (attempt call) := by
  intro e a e' he hrun
  obtain ⟨b, hcall, rfl⟩ := attempt_eq_ok.mp hrun
  exact h _ _ hcall he

/-- Looking at the builder keeps every invariant. -/
lemma builds_inspect (read : B → α) : Builds I (inspect read) := by
  intro e a e' he hrun
  cases hrun
  exact he

/-- Choosing a site keeps every invariant. -/
lemma builds_floorGuardSite (p : Proto) (pc : Nat) :
    Builds I (floorGuardSite p pc : Emit B Nat) := by
  intro e a e' he hrun
  cases hrun
  exact he

/-- A check keeps every invariant. -/
lemma builds_check (c : Prop) [Decidable c] (status : Status) :
    Builds I (check c status : Emit B Unit) :=
  .ite (.pure _) (.throw _)

end calls

/-! ## Integer functions -/

/-- A site that leads back to a division. -/
def Proto.DividesAt (p : Proto) (site : Nat) : Prop :=
  (p.fetch (site % p.sizecode)).opcode.divides = true

section scalars

variable {B : Type} [ScalarBuilder B] {sites : Nat → Prop} {I : B → Prop} (hI : ScalarKept sites I)
include hI

lemma builds_emitConstant (value : Word) : Builds I (emitConstant value : Emit B Value) :=
  builds_build fun _ hb => hI.constant hb value

lemma builds_emitFloat64Constant (bits : Word) : Builds I (emitFloat64Constant bits : Emit B Value) :=
  builds_build fun _ hb => hI.float64Constant hb bits

/-- Binary operations. -/
lemma builds_emitBinary (opcode : BinaryOpcode) (lhs rhs : Value) :
    Builds I (emitBinary opcode lhs rhs : Emit B Value) :=
  builds_build fun _ hb => hI.binary hb opcode lhs rhs

/-- Unary operations. -/
lemma builds_emitUnary (opcode : UnaryOpcode) (v : Value) :
    Builds I (emitUnary opcode v : Emit B Value) :=
  builds_build fun _ hb => hI.unary hb opcode v

end scalars

section straight

variable {B : Type} [ScalarBuilder B] {p : Proto} {I : B → Prop} (hI : ScalarKept p.DividesAt I)
include hI

/-- The one guard, at an instruction that divides. -/
lemma builds_emitFloor {pc : Nat} (hdivides : (p.fetch pc).opcode.divides = true)
    (opcode : BinaryOpcode) (lhs rhs : Value) : Builds I (emitFloor p pc opcode lhs rhs) := by
  have hpc : pc < p.sizecode := Proto.lt_sizecode fun hother => by
    rw [hother] at hdivides
    cases hdivides
  refine .bind_of (builds_floorGuardSite p pc) fun e site e' hsite => ?_
  cases hsite
  refine .bind (builds_build fun b hb => hI.guard hb (.inl rfl) rhs ?_)
    fun _ => .bind (builds_check _ _) fun _ => builds_emitBinary hI opcode lhs rhs
  rwa [Proto.DividesAt, Proto.mod_sizecode hpc]

/-- Arithmetic; the guard before a division is at a division. -/
lemma builds_emitArithmetic {pc : Nat} {opcode : OpCode} (hopcode : (p.fetch pc).opcode = opcode)
    (lhs rhs : Value) : Builds I (emitArithmetic p pc opcode lhs rhs) := by
  cases opcode
  case modK | idivK | mod | idiv => exact builds_emitFloor hI (by rw [hopcode]; rfl) _ _ _
  case shr => exact .bind (builds_emitUnary hI _ _) fun _ => builds_emitBinary hI _ _ _
  all_goals exact builds_emitBinary hI _ _ _

/-- Instructions on two registers. -/
lemma builds_translateRegisters (pc stop : Nat) (values : List Value)
    (operandText fallbackText : String) :
    Builds I (translateRegisters p pc stop values operandText fallbackText) :=
  .bind (builds_check _ _) fun _ => .bind (builds_emitArithmetic hI rfl _ _) fun _ =>
    .bind (builds_check _ _) fun _ => .pure _

/-- Instructions on a register and a constant. -/
lemma builds_translateConstant (pc stop : Nat) (values : List Value)
    (operandText integerText fallbackText : String) :
    Builds I (translateConstant p pc stop values operandText integerText fallbackText) := by
  refine .bind (builds_check _ _) fun _ => ?_
  rcases p.integerConstant (p.fetch pc).C with - | value
  · exact .throw _
  · exact .bind (builds_emitConstant hI value) fun _ => .bind (builds_emitArithmetic hI rfl _ _)
      fun _ => .bind (builds_check _ _) fun _ => .pure _

/-- Instructions on a register and an immediate. -/
lemma builds_translateImmediate (pc stop : Nat) (values : List Value)
    (operandText fallbackText : String) :
    Builds I (translateImmediate p pc stop values operandText fallbackText) := by
  have hrest : ∀ v, Builds I (checkFallback p pc stop .mmbinI fallbackText >>= fun _ =>
      pure (values.set (p.fetch pc).A v, pc + 2)) := fun v =>
    .bind (builds_check _ _) fun _ => .pure _
  refine .bind (builds_check _ _) fun _ => ?_
  dsimp only
  split
  all_goals
    exact .bind (builds_emitConstant hI _) fun _ => .bind (builds_emitArithmetic hI rfl _ _) hrest

/-- Unary instructions. -/
lemma builds_translateUnary (pc : Nat) (values : List Value) (opcode : UnaryOpcode) :
    Builds I (translateUnary p pc values opcode) :=
  .bind (builds_check _ _) fun _ => .bind (builds_emitUnary hI _ _) fun _ => .pure _

/-- Any straight-line instruction. -/
lemma builds_translateInstruction (unsupported : String) (pc stop : Nat) (values : List Value) :
    Builds I (translateInstruction p unsupported pc stop values) := by
  unfold translateInstruction
  dsimp only
  split
  · exact .bind (builds_check _ _) fun _ => .pure _
  · exact .bind (builds_check _ _) fun _ => .bind (builds_emitConstant hI _) fun _ => .pure _
  · refine .bind (builds_check _ _) fun _ => ?_
    rcases p.integerConstant (p.fetch pc).Bx with - | value
    · exact .throw _
    · exact .bind (builds_emitConstant hI value) fun _ => .pure _
  all_goals
    first
      | exact builds_translateImmediate hI _ _ _ _ _
      | exact builds_translateConstant hI _ _ _ _ _ _
      | exact builds_translateRegisters hI _ _ _ _ _
      | exact builds_translateUnary hI _ _ _
      | exact .throw _

/-- The records of returned values are kept as well, where there are any. -/
lemma builds_translateRange {rules : RangeRules} (hreturn : rules.allowReturn = true →
      ∀ b b' v, ScalarBuilder.setReturn b v = .ok b' → I b → I b')
    (stop fuel pc : Nat) (values : List Value) :
    Builds I (translateRange p rules stop fuel pc values : Emit B (List Value × Bool)) := by
  have hrecord : ∀ pc values (c : Prop) [Decidable c] message,
      (c → rules.allowReturn = true) →
      Builds I (translateReturn p pc values c message : Emit B (List Value × Bool)) := by
    intro pc values c _ message hc
    refine .bind_of (builds_check _ _) fun _ _ _ hcheck => ?_
    obtain ⟨⟨hallowed, -⟩, -⟩ := check_eq_ok.mp hcheck
    refine .bind (builds_attempt fun b b' hcall hb => ?_) fun _ => .pure _
    rcases hset : ScalarBuilder.setReturn b (values.getD (p.fetch pc).A .invalid) with status | b₁
    · rw [hset] at hcall
      cases hcall
    · rw [hset] at hcall
      cases hcall
      exact hreturn (hc hallowed) _ _ _ hset hb
  induction fuel generalizing pc values with
  | zero => exact .pure _
  | succ fuel ih =>
      refine .ite (.pure _) (.bind (builds_check _ _) fun _ => .ite ?_ (.ite ?_ (.bind ?_ ?_)))
      · exact hrecord _ _ _ _ id
      · exact hrecord _ _ _ _ And.left
      · exact builds_translateInstruction hI _ _ _ _
      · exact fun _ => ih _ _

end straight

/-! ### Blocks -/

section graph

variable {sites : Nat → Prop} {I : ControlFlowBuilder → Prop}
  (hI : ControlFlowBuilder.Kept sites I)
include hI

/-- A new block. -/
lemma builds_createBlock (types : List ValueType) :
    Builds I (build fun b : ControlFlowBuilder => b.createBlock types) :=
  builds_build fun b hb => hI.createBlock b types hb

/-- New blocks. -/
lemma builds_createBlocks (n count : Nat) : Builds I (createBlocks n count) := by
  induction n with
  | zero => exact .pure _
  | succ n ih => exact .bind (builds_createBlock hI _) fun _ => .bind ih fun _ => .pure _

/-- Moving the insertion point. -/
lemma builds_setInsertionBlock (block : Block) : Builds I (setInsertionBlock block) := by
  refine builds_attempt fun b b' hset hb => ?_
  obtain ⟨-, hrest⟩ := require_bind_eq_ok.mp hset
  obtain rfl := pure_eq_ok.mp hrest
  exact hI.setInsertionBlock b block hb

/-- Jumps. -/
lemma builds_emitJump (target : Block) (arguments : List Value) :
    Builds I (emitJump target arguments) :=
  builds_attempt fun _ _ hset hb => hI.jump hb hset

/-- Branches. -/
lemma builds_emitBranch (condition : Value) (trueTarget : Block) (trueArguments : List Value)
    (falseTarget : Block) (falseArguments : List Value) :
    Builds I (emitBranch condition trueTarget trueArguments falseTarget falseArguments) :=
  builds_attempt fun _ _ hset hb => hI.branch hb hset

/-- Safepoints. -/
lemma builds_safepoint (site : Nat) :
    Builds I (build fun b : ControlFlowBuilder => b.safepoint site) :=
  builds_build fun _ hb => hI.safepoint hb site

lemma builds_emitSafepoint (pc : Nat) (message : String) : Builds I (emitSafepoint pc message) :=
  .bind (builds_safepoint hI pc) fun _ => builds_check _ _

/-- The results of returns are recorded with a terminator. -/
lemma keeps_setReturn {b b' : ControlFlowBuilder} {v : Value}
    (h : ScalarBuilder.setReturn b v = .ok b') (hb : I b) : I b' :=
  hI.setReturn hb h

end graph

section loops

variable {p : Proto} {l : LoopSite} {I : ControlFlowBuilder → Prop}
  (hI : ControlFlowBuilder.Kept p.DividesAt I)
include hI

lemma builds_translate (rules : RangeRules) (start stop : Nat) (values : List Value) :
    Builds I (translate p rules start stop values : EmitGraph _) :=
  builds_translateRange hI.scalar (fun _ _ _ _ => keeps_setReturn hI) _ _ _ _

omit hI in
/-- The registers a block passes on. -/
lemma builds_completedRegisters (l : LoopSite) (values : List Value) (message : String) :
    Builds I (l.completedRegisters values message) :=
  .bind (builds_check _ _) fun _ => .pure _

/-- The code behind a loop. -/
lemma builds_emitExit (exit : Block) (message : String) : Builds I (emitExit p l exit message) :=
  .bind (builds_setInsertionBlock hI _) fun _ => .bind (builds_inspect _) fun _ =>
    .bind (builds_translate hI _ _ _ _) fun _ => builds_check _ _

/-- The helper call that counts. -/
lemma builds_emitRemaining (helper : Word) (message : String) :
    Builds I (emitRemaining l helper message) :=
  .bind (builds_build fun _ hb => hI.call hb _ _) fun _ => .bind (builds_check _ _) fun _ => .pure _

/-- The entry of a loop whose direction is tested. -/
lemma builds_emitSignedEntry (positive nonpositive negative dispatch exit : Block)
    (initial : List Value) :
    Builds I (emitSignedEntry l positive nonpositive negative dispatch exit initial) :=
  .bind (builds_emitConstant hI.scalar _) fun _ => .bind (builds_emitBinary hI.scalar _ _ _) fun _ =>
    .bind (builds_emitBranch hI _ _ _ _ _) fun _ => .bind (builds_setInsertionBlock hI _) fun _ =>
    .bind (builds_emitBinary hI.scalar _ _ _) fun _ => .bind (builds_emitBranch hI _ _ _ _ _)
      fun _ => .bind (builds_setInsertionBlock hI _) fun _ =>
    .bind (builds_emitBinary hI.scalar _ _ _) fun _ => .bind (builds_emitBranch hI _ _ _ _ _)
      fun _ => .bind (builds_setInsertionBlock hI _) fun _ =>
    .bind (builds_emitBinary hI.scalar _ _ _) fun _ => builds_emitBranch hI _ _ _ _ _

/-- The entry of a loop whose direction is known. -/
lemma builds_emitKnownEntry (ascending : Bool) (dispatch exit : Block) (initial : List Value) :
    Builds I (emitKnownEntry l ascending dispatch exit initial) := by
  unfold emitKnownEntry
  split
  all_goals
    exact .bind (builds_emitBinary hI.scalar _ _ _) fun _ => builds_emitBranch hI _ _ _ _ _

/-- The choice between the unrolled and the scalar body. -/
lemma builds_emitUnrollChoice (dispatch check unrolled scalar : Block) :
    Builds I (emitUnrollChoice l dispatch check unrolled scalar) :=
  .bind (builds_inspect _) fun _ => .bind (builds_inspect _) fun _ =>
    .bind (builds_emitConstant hI.scalar _) fun _ => .bind (builds_emitBinary hI.scalar _ _ _) fun _ =>
    .bind (builds_emitBranch hI _ _ _ _ _) fun _ => .bind (builds_setInsertionBlock hI _) fun _ =>
    .bind (builds_inspect _) fun _ => .bind (builds_inspect _) fun _ =>
    .bind (builds_emitConstant hI.scalar _) fun _ => .bind (builds_emitBinary hI.scalar _ _ _) fun _ =>
    builds_emitBranch hI _ _ _ _ _

/-! ### A condition in the body -/

/-- The comparison of a guarded body. -/
lemma builds_comparisonValue (pc : Nat) (values : List Value) :
    Builds I (comparisonValue p pc values) := by
  have hrelation : ∀ (opcode : BinaryOpcode) (lhs rhs : Value) (status : Status),
      Builds I (emitBinary opcode lhs rhs >>= fun relation : Value =>
        check relation.valid status >>= fun _ => (pure relation : EmitGraph Value)) :=
    fun opcode lhs rhs status => .bind (builds_emitBinary hI.scalar _ _ _) fun _ =>
      .bind (builds_check _ _) fun _ => .pure _
  unfold comparisonValue
  refine .bind (builds_check _ _) fun _ => ?_
  generalize (p.fetch pc).opcode = opcode
  cases opcode
  case eq | lt | le =>
    exact .bind (builds_check _ _) fun _ => .bind (.pure _) fun _ => hrelation _ _ _ _
  case eqK =>
    rcases p.integerConstant (p.fetch pc).B with - | value
    · exact .bind (.throw _) fun _ => hrelation _ _ _ _
    · exact .bind (builds_emitConstant hI.scalar _) fun _ => hrelation _ _ _ _
  all_goals exact .bind (builds_emitConstant hI.scalar _) fun _ => hrelation _ _ _ _

omit hI in
lemma builds_countedArguments (values : List Value) (remaining : Value) :
    Builds I (countedArguments l values remaining) :=
  .bind (builds_completedRegisters _ _ _) fun _ => .pure _

/-- The action of a guarded body. -/
lemma builds_emitAction (plan : GuardedBodyPlan) (action merge exit : Block) :
    Builds I (emitAction p l plan action merge exit) := by
  refine .bind (builds_setInsertionBlock hI _) fun _ => .bind (builds_inspect _) fun _ =>
    .bind (builds_inspect _) fun _ => ?_
  split
  · exact .bind (builds_translate hI _ _ _ _) fun _ => .bind (builds_countedArguments _ _)
      fun _ => builds_emitJump hI _ _
  · exact .bind (builds_translate hI _ _ _ _) fun _ => .bind (builds_countedArguments _ _)
      fun _ => builds_emitJump hI _ _
  · exact .bind (builds_completedRegisters _ _ _) fun _ => builds_emitJump hI _ _
  · exact .bind (builds_translate hI _ _ _ _) fun _ => builds_check _ _

/-- The alternative of a guarded body. -/
lemma builds_emitAlternate (plan : GuardedBodyPlan) (alternate merge : Block) :
    Builds I (emitAlternate p l plan alternate merge) := by
  have hrest : ∀ values remaining, Builds I (countedArguments l values remaining >>= fun arguments =>
      emitJump merge arguments) := fun values remaining =>
    .bind (builds_countedArguments _ _) fun _ => builds_emitJump hI _ _
  unfold emitAlternate
  refine .bind (builds_setInsertionBlock hI _) fun _ => .bind (builds_inspect _) fun _ =>
    .bind (builds_inspect _) fun _ => ?_
  split
  · exact .bind (builds_translate hI _ _ _ _) fun _ => .bind (.pure _) fun _ => hrest _ _
  · exact hrest _ _

/-- The rest of a guarded body. -/
lemma builds_emitMerge (plan : GuardedBodyPlan) (merge continuation exit : Block)
    (checkRemaining : Bool) : Builds I (emitMerge p l plan merge continuation exit checkRemaining) :=
  .bind (builds_setInsertionBlock hI _) fun _ => .bind (builds_inspect _) fun _ =>
    .bind (builds_translate hI _ _ _ _) fun _ => .bind (builds_inspect _) fun _ =>
    .bind (builds_check _ _) fun _ => .bind (builds_emitBinary hI.scalar _ _ _) fun _ =>
    .bind (builds_emitConstant hI.scalar _) fun _ => .bind (builds_emitBinary hI.scalar _ _ _) fun _ =>
    .bind (builds_completedRegisters _ _ _) fun _ =>
    .ite (builds_emitBranch hI _ _ _ _ _) (builds_emitJump hI _ _)

/-- One iteration of a guarded body. -/
lemma builds_emitIteration (plan : GuardedBodyPlan) (exit iteration continuation : Block)
    (checkRemaining : Bool) :
    Builds I (emitIteration p l plan exit iteration continuation checkRemaining) := by
  have hrest : ∀ action alternate merge, Builds I (emitAction p l plan action merge exit >>= fun _ =>
      emitAlternate p l plan alternate merge >>= fun _ =>
        emitMerge p l plan merge continuation exit checkRemaining) := fun action alternate merge =>
    .bind (builds_emitAction hI _ _ _ _) fun _ => .bind (builds_emitAlternate hI _ _ _) fun _ =>
      builds_emitMerge hI _ _ _ _ _
  unfold emitIteration
  refine .bind (builds_setInsertionBlock hI _) fun _ => .bind (builds_inspect _) fun _ =>
    .bind (builds_translate hI _ _ _ _) fun _ => .bind (builds_comparisonValue hI _ _) fun _ =>
    .bind (builds_inspect _) fun _ => .bind (builds_countedArguments _ _) fun _ =>
    .bind (builds_createBlock hI _) fun _ => .bind (builds_createBlock hI _) fun _ =>
    .bind (builds_createBlock hI _) fun _ => .bind (builds_check _ _) fun _ => ?_
  split
  · exact .bind (builds_emitBranch hI _ _ _ _ _) fun _ => hrest _ _ _
  · exact .bind (builds_emitBranch hI _ _ _ _ _) fun _ => hrest _ _ _

/-- The unrolled iterations of a guarded body. -/
lemma builds_emitIterations (plan : GuardedBodyPlan) (exit dispatch : Block) (blocks : List Block) :
    Builds I (emitIterations p l plan exit dispatch blocks) := by
  induction blocks with
  | nil => exact .pure _
  | cons iteration rest ih =>
      rcases rest with - | ⟨next, rest⟩
      · exact builds_emitIteration hI _ _ _ _ _
      · exact .bind (builds_emitIteration hI _ _ _ _ _) fun _ => ih

/-- A guarded loop. -/
lemma builds_emitGuardedLoop (helper : Word) (optimized : Bool) (step : Symbolic)
    (plan : GuardedBodyPlan) : Builds I (emitGuardedLoop p l helper optimized step plan) := by
  have htail : ∀ exit dispatch scalar unrolled, Builds I
      (do emitIterations p l plan exit dispatch unrolled
          emitIteration p l plan exit scalar dispatch true
          emitExit p l exit "guarded Lua numeric loop has no return") :=
    fun exit dispatch scalar unrolled => .bind (builds_emitIterations hI _ _ _ _) fun _ =>
      .bind (builds_emitIteration hI _ _ _ _ _) fun _ => builds_emitExit hI _ _
  unfold emitGuardedLoop
  refine .bind (builds_createBlock hI _) fun dispatch => .bind (builds_createBlocks hI _ _)
    fun checks => .bind (builds_createBlocks hI _ _) fun unrolled =>
    .bind (builds_createBlock hI _) fun scalar => .bind (builds_createBlock hI _) fun exit =>
    .bind (builds_createBlocks hI _ _) fun entries => .bind (builds_check _ _) fun _ =>
    .bind (builds_emitRemaining hI _ _) fun _ => ?_
  dsimp only
  split
  · refine .bind (builds_emitSignedEntry hI _ _ _ _ _ _) fun _ =>
      .bind (builds_setInsertionBlock hI _) fun _ => .bind (builds_emitSafepoint hI _ _) fun _ => ?_
    split
    · exact .bind (builds_emitUnrollChoice hI _ _ _ _) fun _ => htail _ _ _ _
    · exact .bind (builds_inspect _) fun _ => .bind (builds_emitJump hI _ _) fun _ => htail _ _ _ _
  · refine .bind (builds_emitKnownEntry hI _ _ _ _) fun _ =>
      .bind (builds_setInsertionBlock hI _) fun _ => .bind (builds_emitSafepoint hI _ _) fun _ => ?_
    split
    · exact .bind (builds_emitUnrollChoice hI _ _ _ _) fun _ => htail _ _ _ _
    · exact .bind (builds_inspect _) fun _ => .bind (builds_emitJump hI _ _) fun _ => htail _ _ _ _
  · refine .bind (builds_setInsertionBlock hI _) fun _ =>
      .bind (builds_emitSafepoint hI _ _) fun _ => ?_
    split
    · exact .bind (builds_emitUnrollChoice hI _ _ _ _) fun _ => htail _ _ _ _
    · exact .bind (builds_inspect _) fun _ => .bind (builds_emitJump hI _ _) fun _ => htail _ _ _ _

/-! ### A parameter as the step -/

/-- The copies of a straight-line body. -/
lemma builds_emitCopies (n : Nat) (values : List Value) : Builds I (emitCopies p l n values) := by
  induction n generalizing values with
  | zero => exact .pure _
  | succ n ih =>
      exact .bind (builds_translate hI _ _ _ _) fun _ => .ite (.pure _)
        (.bind (builds_emitBinary hI.scalar _ _ _) fun _ => ih _)

/-- The copies of a counted body and their latch. -/
lemma builds_emitCountedCopies (factor : Nat) (block dispatch exit : Block)
    (lostText undefinedText : String) :
    Builds I (emitCountedCopies p l factor block dispatch exit lostText undefinedText) :=
  .bind (builds_setInsertionBlock hI _) fun _ => .bind (builds_inspect _) fun _ =>
    .bind (builds_emitCopies hI _ _) fun _ => .bind (builds_check _ _) fun _ =>
    .bind (builds_inspect _) fun _ => .bind (builds_emitConstant hI.scalar _) fun _ =>
    .bind (builds_emitBinary hI.scalar _ _ _) fun _ => .bind (builds_emitBinary hI.scalar _ _ _)
      fun _ => .bind (builds_emitConstant hI.scalar _) fun _ =>
    .bind (builds_emitBinary hI.scalar _ _ _) fun _ => .bind (builds_completedRegisters _ _ _)
      fun _ => builds_emitBranch hI _ _ _ _ _

/-- The scalar tail of a counted loop. -/
lemma builds_emitCountedTail (block dispatch exit : Block) (lostText undefinedText : String) :
    Builds I (emitCountedTail p l block dispatch exit lostText undefinedText) :=
  .bind (builds_setInsertionBlock hI _) fun _ => .bind (builds_inspect _) fun _ =>
    .bind (builds_translate hI _ _ _ _) fun _ => .bind (builds_check _ _) fun _ =>
    .bind (builds_inspect _) fun _ => .bind (builds_emitBinary hI.scalar _ _ _) fun _ =>
    .bind (builds_emitConstant hI.scalar _) fun _ => .bind (builds_emitBinary hI.scalar _ _ _) fun _ =>
    .bind (builds_completedRegisters _ _ _) fun _ => builds_emitBranch hI _ _ _ _ _

/-- A loop with its step in a parameter. -/
lemma builds_emitParameterStepLoop (helper : Word) (optimized : Bool) :
    Builds I (emitParameterStepLoop p l helper optimized) := by
  have htail : ∀ factor unrolled scalar dispatch exit, Builds I
      (do emitCountedCopies p l factor unrolled dispatch exit
            "numeric loop lost its induction state" "numeric loop has an undefined carried register"
          emitCountedTail p l scalar dispatch exit
            "numeric loop lost its scalar induction state"
            "numeric scalar tail has an undefined carried register"
          emitExit p l exit "Lua numeric loop has no supported return") :=
    fun factor unrolled scalar dispatch exit => .bind (builds_emitCountedCopies hI _ _ _ _ _ _)
      fun _ => .bind (builds_emitCountedTail hI _ _ _ _ _) fun _ => builds_emitExit hI _ _
  unfold emitParameterStepLoop
  refine .bind (builds_createBlock hI _) fun _ => .bind (builds_createBlock hI _) fun _ =>
    .bind (builds_createBlock hI _) fun _ => .bind (builds_createBlock hI _) fun _ =>
    .bind (builds_createBlocks hI _ _) fun checks => .bind (builds_createBlock hI _) fun _ =>
    .bind (builds_createBlock hI _) fun _ => .bind (builds_createBlock hI _) fun _ =>
    .bind (builds_check _ _) fun _ => .bind (builds_emitRemaining hI _ _) fun _ =>
    .bind (builds_emitSignedEntry hI _ _ _ _ _ _) fun _ => .bind (builds_setInsertionBlock hI _)
      fun _ => .bind (builds_emitSafepoint hI _ _) fun _ => ?_
  rcases checks with - | ⟨check, rest⟩
  · exact .bind (builds_inspect _) fun _ => .bind (builds_emitConstant hI.scalar _) fun _ =>
      .bind (builds_emitBranch hI _ _ _ _ _) fun _ => htail _ _ _ _ _
  · exact .bind (builds_emitUnrollChoice hI _ _ _ _) fun _ => htail _ _ _ _ _

/-! ### A constant as the step -/

lemma builds_emitOrdered (ascending : Bool) (opcode : BinaryOpcode) (lhs rhs : Value) :
    Builds I (emitOrdered ascending opcode lhs rhs) :=
  .ite (builds_emitBinary hI.scalar _ _ _) (builds_emitBinary hI.scalar _ _ _)

/-- The choice of the unrolled body by the index. -/
lemma builds_emitIndexChoice (ascending : Bool) (factor : Nat) (delta : Word)
    (dispatch unrollCheck unrolled scalar : Block) :
    Builds I (emitIndexChoice p l ascending factor delta dispatch unrollCheck unrolled scalar) := by
  have hrest : ∀ (advances : Value) (arguments arguments' : List Value), Builds I
      (do emitBranch advances unrollCheck arguments scalar arguments'
          setInsertionBlock unrollCheck
          let arguments ← blockArguments unrollCheck l.carried.length
          let values ← blockRegisters p l.carried unrollCheck
          let lastIndex ← inspect fun b => b.blockParameter unrollCheck l.carried.length
          let hasFullGroup ← emitOrdered ascending .lessEqual lastIndex
            (values.getD (l.stateBase + 1) .invalid)
          emitBranch hasFullGroup unrolled arguments scalar arguments) :=
    fun advances arguments arguments' => .bind (builds_emitBranch hI _ _ _ _ _) fun _ =>
      .bind (builds_setInsertionBlock hI _) fun _ => .bind (builds_inspect _) fun _ =>
      .bind (builds_inspect _) fun _ => .bind (builds_inspect _) fun _ =>
      .bind (builds_emitOrdered hI _ _ _ _) fun _ => builds_emitBranch hI _ _ _ _ _
  unfold emitIndexChoice
  refine .bind (builds_setInsertionBlock hI _) fun _ => .bind (builds_emitSafepoint hI _ _) fun _ =>
    .bind (builds_inspect _) fun _ => .bind (builds_inspect _) fun _ =>
    .bind (builds_emitConstant hI.scalar _) fun _ => .bind (builds_emitBinary hI.scalar _ _ _)
      fun _ => ?_
  split
  · exact .bind (builds_emitConstant hI.scalar _) fun _ => hrest _ _ _
  · exact .bind (builds_emitOrdered hI _ _ _ _) fun _ => hrest _ _ _

/-- The latch of a loop with a constant step. -/
lemma builds_emitContinue (ascending : Bool) (continueCheck : Option Block) (again exit : Block)
    (values : List Value) (lostText undefinedText : String) :
    Builds I (emitContinue p l ascending continueCheck again exit values lostText undefinedText) := by
  refine .bind (builds_check _ _) fun _ => .bind (builds_emitBinary hI.scalar _ _ _) fun _ =>
    .bind (builds_completedRegisters _ _ _) fun _ => ?_
  rcases continueCheck with - | block
  · exact .bind (builds_emitOrdered hI _ _ _ _) fun _ => builds_emitBranch hI _ _ _ _ _
  · exact .bind (builds_emitOrdered hI _ _ _ _) fun _ => .bind (builds_emitBranch hI _ _ _ _ _)
      fun _ => .bind (builds_setInsertionBlock hI _) fun _ => .bind (builds_inspect _) fun _ =>
      .bind (builds_inspect _) fun _ => .bind (builds_inspect _) fun _ =>
      .bind (builds_emitOrdered hI _ _ _ _) fun _ => builds_emitBranch hI _ _ _ _ _

/-- A loop with a constant step. -/
lemma builds_emitConstantStepLoop (optimized : Bool) (step : Word) :
    Builds I (emitConstantStepLoop p l optimized step) :=
  .bind (builds_createBlock hI _) fun _ => .bind (builds_createBlock hI _) fun _ =>
    .bind (builds_createBlock hI _) fun _ => .bind (builds_createBlocks hI _ _) fun _ =>
    .bind (builds_createBlock hI _) fun _ => .bind (builds_createBlocks hI _ _) fun _ =>
    .bind (builds_createBlock hI _) fun _ => .bind (builds_check _ _) fun _ =>
    .bind (builds_emitKnownEntry hI _ _ _ _) fun _ =>
    .bind (builds_emitIndexChoice hI _ _ _ _ _ _ _) fun _ => .bind (builds_setInsertionBlock hI _)
      fun _ => .bind (builds_inspect _) fun _ => .bind (builds_emitCopies hI _ _) fun _ =>
    .bind (builds_emitContinue hI _ _ _ _ _ _ _) fun _ => .bind (builds_setInsertionBlock hI _)
      fun _ => .bind (builds_inspect _) fun _ => .bind (builds_translate hI _ _ _ _) fun _ =>
    .bind (builds_emitContinue hI _ _ _ _ _ _ _) fun _ => builds_emitExit hI _ _

/-- A graph with a loop is built by calls that keep the property. -/
lemma builds_emitNumericFor (helper : Word) (optimized : Bool) (preparationPc loopPc : Nat)
    (guarded : Option GuardedBodyPlan) (registers : List Value) :
    Builds I (emitNumericFor p helper optimized preparationPc loopPc guarded registers) := by
  refine .bind (builds_translate hI _ _ _ _) fun _ => .bind (builds_check _ _) fun _ =>
    .bind (builds_check _ _) fun _ => ?_
  dsimp only
  split
  · exact builds_emitGuardedLoop hI _ _ _ _
  · exact builds_emitConstantStepLoop hI _ _
  · exact builds_emitParameterStepLoop hI _ _

end loops

/-- The exits of a graph with a loop are at the guards of its divisions. -/
theorem exits_of_compile {p : Proto} {helper : Word} {optimized : Bool} {f : ControlFlowFunction}
    (h : compileNumericForPrototype p helper optimized = .ok f) (host : Host) (budget : Nat)
    (block : Block) (s : Values) :
    ExitsAt p.DividesAt (f.executeBlocks host budget block s) := by
  unfold compileNumericForPrototype at h
  obtain ⟨_, -, h⟩ := bind_eq_ok.mp h
  obtain ⟨preparationPc, -, h⟩ := bind_eq_ok.mp h
  obtain ⟨-, h⟩ := require_bind_eq_ok.mp h
  obtain ⟨-, h⟩ := require_bind_eq_ok.mp h
  obtain ⟨guarded, -, h⟩ := bind_eq_ok.mp h
  dsimp only at h
  split at h
  case h_1 => cases h
  case h_2 e hrun =>
    cases h
    have hnodes := builds_emitNumericFor (ControlFlowBuilder.kept_nodesExitAt p.DividesAt) _ _ _ _ _
      _ _ _ _ (ControlFlowBuilder.nodesExitAt_create _ _) hrun
    exact ControlFlowFunction.executeBlocks_exits hnodes.within trivial budget s

/-- `for i = 1, 10 do a = a // i end return a`. -/
def dividingLoop : Proto where
  numparams := 1
  maxstacksize := 4
  code :=
    [{ opcode := .loadI, A := 1, sBx := 1 },
     { opcode := .loadI, A := 2, sBx := 10 },
     { opcode := .loadI, A := 3, sBx := 1 },
     { opcode := .forPrep, A := 1, Bx := 2 },
     { opcode := .idiv, A := 0, B := 0, C := 3 },
     { opcode := .mmbin, A := 0, B := 3 },
     { opcode := .forLoop, A := 1, Bx := 3 },
     { opcode := .ret1, A := 0 }]

/-- Entered at its loop with the index zero, the graph leaves at the guard of the division. -/
theorem exits_of_compile_dividingLoop :
    ∃ f status m, compileNumericForPrototype dividingLoop 0#64 true = .ok f ∧
      f.executeBlocks sampleHost 100 ⟨1⟩ (Values.zero f.nodes.length) {} = .error status m ∧
      status.code = .runtimeExit ∧ dividingLoop.DividesAt status.location := by
  have hleaves : (compileNumericForPrototype dividingLoop 0#64 true >>= fun f =>
      match f.executeBlocks sampleHost 100 ⟨1⟩ (Values.zero f.nodes.length) {} with
      | .error status _ => .ok status.code
      | .ok _ _ => .ok .ok) = .ok .runtimeExit := by
    decide +kernel
  obtain ⟨f, hcompile, hleaves⟩ := bind_eq_ok.mp hleaves
  have hexits := exits_of_compile hcompile sampleHost 100 ⟨1⟩ (Values.zero f.nodes.length) {}
  cases hrun : f.executeBlocks sampleHost 100 ⟨1⟩ (Values.zero f.nodes.length) {} with
  | ok value m =>
      rw [hrun] at hleaves
      cases hleaves
  | error status m =>
      rw [hrun] at hleaves hexits
      have hcode : status.code = .runtimeExit := Except.ok.inj hleaves
      exact ⟨f, status, m, hcompile, hrun, hcode, hexits hcode⟩

/-! ## Float64 functions -/

section straight

variable {B : Type} [ScalarBuilder B] {ofInteger : Word → Word} {p : Proto} {sites : Nat → Prop}
  {I : B → Prop} (hI : ScalarKept sites I)
include hI

/-- Float64 instructions on a register and an immediate. -/
lemma builds_translateFloatImmediate (pc stop : Nat) (values : List TypedValue) :
    Builds I (translateFloatImmediate ofInteger p pc stop values) :=
  .bind (builds_check _ _) fun _ => .bind (builds_check _ _) fun _ =>
    .bind (builds_emitFloat64Constant hI _) fun _ => .bind (builds_emitBinary hI _ _ _) fun _ =>
    .bind (builds_check _ _) fun _ => .pure _

/-- Float64 instructions on a register and a constant. -/
lemma builds_translateFloatConstant (pc stop : Nat) (values : List TypedValue) :
    Builds I (translateFloatConstant ofInteger p pc stop values) := by
  refine .bind (builds_check _ _) fun _ => ?_
  rcases p.toDouble ofInteger (p.fetch pc).C with - | ⟨bits, kind⟩
  · exact .throw _
  · exact .bind (builds_check _ _) fun _ => .bind (builds_emitFloat64Constant hI _) fun _ =>
      .bind (builds_emitBinary hI _ _ _) fun _ => .bind (builds_check _ _) fun _ => .pure _

/-- Float64 instructions on two registers. -/
lemma builds_translateFloatRegisters (pc stop : Nat) (values : List TypedValue) :
    Builds I (translateFloatRegisters p pc stop values) :=
  .bind (builds_check _ _) fun _ => .bind (builds_check _ _) fun _ =>
    .bind (builds_emitBinary hI _ _ _) fun _ => .bind (builds_check _ _) fun _ => .pure _

/-- Any straight-line Float64 instruction. -/
lemma builds_translateFloatInstruction (inLoop : Bool) (pc stop : Nat) (values : List TypedValue) :
    Builds I (translateFloatInstruction ofInteger p inLoop pc stop values) := by
  unfold translateFloatInstruction
  dsimp only
  split
  · exact .bind (builds_check _ _) fun _ => .pure _
  · exact .bind (builds_check _ _) fun _ => .bind (builds_emitFloat64Constant hI _) fun _ => .pure _
  · exact .bind (builds_check _ _) fun _ => .bind (builds_emitFloat64Constant hI _) fun _ => .pure _
  · refine .bind (builds_check _ _) fun _ => ?_
    rcases p.toDouble ofInteger (p.fetch pc).Bx with - | ⟨bits, kind⟩
    · exact .throw _
    · exact .bind (builds_emitFloat64Constant hI _) fun _ => .pure _
  all_goals
    first
      | exact builds_translateFloatImmediate hI _ _ _
      | exact builds_translateFloatConstant hI _ _ _
      | exact builds_translateFloatRegisters hI _ _ _
      | exact .throw _
      | exact .bind (builds_check _ _) fun _ => .bind (builds_check _ _) fun _ =>
          .bind (builds_emitUnary hI _ _) fun _ => .pure _

/-- A range of Float64 instructions, also when it returns. -/
lemma builds_translateFloatRange {allowReturn : Bool} (hreturn : allowReturn = true →
      ∀ b b' v, ScalarBuilder.setReturn b v = .ok b' → I b → I b')
    (protectedStateBase : Option Nat) (stop fuel pc : Nat) (values : List TypedValue) :
    Builds I (translateFloatRange ofInteger p allowReturn protectedStateBase stop fuel pc values :
      Emit B (List TypedValue × Bool)) := by
  have hrecord : ∀ pc values, Builds I (translateFloatReturn p allowReturn pc values :
      Emit B (List TypedValue × Bool)) := by
    intro pc values
    refine .bind_of (builds_check _ _) fun _ _ _ hcheck => .bind (builds_check _ _) fun _ =>
      .bind (builds_attempt fun b b' hcall hb => ?_) fun _ => .pure _
    obtain ⟨⟨hallowed, -⟩, -⟩ := check_eq_ok.mp hcheck
    rcases hset : ScalarBuilder.setReturn b (values.getD (p.fetch pc).A {}).value with status | b₁
    · rw [hset] at hcall
      cases hcall
    · rw [hset] at hcall
      cases hcall
      exact hreturn hallowed _ _ _ hset hb
  induction fuel generalizing pc values with
  | zero => exact .pure _
  | succ fuel ih =>
      exact .ite (.pure _) (.bind (builds_check _ _) fun _ => .ite (hrecord _ _)
        (.bind (builds_translateFloatInstruction hI _ _ _ _) fun _ => ih _ _))

end straight

section loops

variable {ofInteger : Word → Word} {p : Proto} {l : FloatLoopSite} {sites : Nat → Prop}
  {I : ControlFlowBuilder → Prop} (hI : ControlFlowBuilder.Kept sites I)
include hI

/-- A translated Float64 range. -/
lemma builds_translateFloat (allowReturn : Bool) (protectedStateBase : Option Nat)
    (start stop : Nat) (values : List TypedValue) : Builds I
      (translateFloat ofInteger p allowReturn protectedStateBase start stop values : EmitGraph _) :=
  builds_translateFloatRange hI.scalar (fun _ _ _ _ => keeps_setReturn hI) _ _ _ _ _

/-- The two entries of a Float64 loop. -/
lemma builds_emitFloatEntries
    (positive nonpositive positiveDispatch nonpositiveDispatch exit : Block) : Builds I
      (emitFloatEntries l positive nonpositive positiveDispatch nonpositiveDispatch exit) :=
  .bind (builds_emitFloat64Constant hI.scalar _) fun _ => .bind (builds_emitConstant hI.scalar _)
    fun _ => .bind (builds_emitBinary hI.scalar _ _ _) fun _ =>
    .bind (builds_emitBranch hI _ _ _ _ _) fun _ => .bind (builds_setInsertionBlock hI _) fun _ =>
    .bind (builds_emitBinary hI.scalar _ _ _) fun _ => .bind (builds_emitBinary hI.scalar _ _ _)
      fun _ => .bind (builds_emitBranch hI _ _ _ _ _) fun _ =>
    .bind (builds_setInsertionBlock hI _) fun _ => .bind (builds_emitBinary hI.scalar _ _ _) fun _ =>
    .bind (builds_emitBinary hI.scalar _ _ _) fun _ => builds_emitBranch hI _ _ _ _ _

/-- The indices of the unrolled copies. -/
lemma builds_emitIndices (step : Value) (n : Nat) (last : Value) :
    Builds I (emitIndices step n last) := by
  induction n generalizing last with
  | zero => exact .pure _
  | succ n ih =>
      exact .bind (builds_emitBinary hI.scalar _ _ _) fun _ => .bind (ih _) fun _ => .pure _

lemma builds_emitFloatOrdered (positive : Bool) (lhs rhs : Value) :
    Builds I (emitFloatOrdered positive lhs rhs) :=
  .ite (builds_emitBinary hI.scalar _ _ _) (builds_emitBinary hI.scalar _ _ _)

/-- The dispatch of a Float64 loop. -/
lemma builds_emitFloatDispatch (dispatch : Block) (unrolled : Option Block) (scalar : Block)
    (positive : Bool) (site : Nat) :
    Builds I (emitFloatDispatch p l dispatch unrolled scalar positive site) := by
  refine .bind (builds_setInsertionBlock hI _) fun _ => .bind (builds_safepoint hI _) fun _ =>
    .bind (builds_check _ _) fun _ => .bind (builds_inspect _) fun _ => ?_
  rcases unrolled with - | unrolled
  · exact builds_emitJump hI _ _
  · exact .bind (builds_inspect _) fun _ => .bind (builds_emitIndices hI _ _ _) fun _ =>
      .bind (builds_emitFloatOrdered hI _ _ _) fun _ => builds_emitBranch hI _ _ _ _ _

/-- The copies of a Float64 body. -/
lemma builds_emitFloatCopies (iteration : Block) (n parameter : Nat) (values : List TypedValue) :
    Builds I (emitFloatCopies ofInteger p l iteration n parameter values) := by
  induction n generalizing parameter values with
  | zero => exact .pure _
  | succ n ih =>
      exact .bind (builds_translateFloat hI _ _ _ _ _) fun _ => .ite (.pure _)
        (.bind (builds_inspect _) fun _ => ih _ _)

omit hI in
/-- The carried Float64 registers. -/
lemma builds_collectCarried (l : FloatLoopSite) (values : List TypedValue) :
    Builds I (l.collectCarried values) :=
  .bind (builds_check _ _) fun _ => .bind (builds_check _ _) fun _ => .pure _

/-- The iterations of a Float64 loop. -/
lemma builds_emitFloatIteration (iteration dispatch exit : Block) (positive : Bool) (count : Nat) :
    Builds I (emitFloatIteration ofInteger p l iteration dispatch exit positive count) :=
  .bind (builds_setInsertionBlock hI _) fun _ => .bind (builds_inspect _) fun _ =>
    .bind (builds_emitFloatCopies hI _ _ _ _) fun _ => .bind (builds_collectCarried _ _) fun _ =>
    .bind (builds_emitBinary hI.scalar _ _ _) fun _ => .bind (builds_emitFloatOrdered hI _ _ _)
      fun _ => builds_emitBranch hI _ _ _ _ _

/-- The code behind a Float64 loop. -/
lemma builds_emitFloatExit (exit : Block) : Builds I
    (do setInsertionBlock exit
        let values ← floatBlockRegisters p l l.exitKind exit
        let tail ← translateFloat ofInteger p true none (l.loopPc + 1) p.sizecode values
        check tail.2 (bytecodeError p.sizecode "Float64 numeric loop has no supported return")) :=
  .bind (builds_setInsertionBlock hI _) fun _ => .bind (builds_inspect _) fun _ =>
    .bind (builds_translateFloat hI _ _ _ _ _) fun _ => builds_check _ _

/-- A Float64 loop. -/
lemma builds_emitFloatLoop (optimized : Bool) : Builds I (emitFloatLoop ofInteger p l optimized) := by
  have hiteration := @builds_emitFloatIteration ofInteger p l sites I hI
  unfold emitFloatLoop
  refine .bind (builds_createBlock hI _) fun _ => .bind (builds_createBlock hI _) fun _ =>
    .bind (builds_createBlock hI _) fun _ => .bind (builds_createBlock hI _) fun _ => ?_
  dsimp only
  split
  · refine .bind (builds_createBlock hI _) fun _ => .bind (builds_createBlock hI _) fun _ =>
      .bind (.pure _) fun unrolled => .bind (builds_createBlock hI _) fun _ =>
      .bind (builds_createBlock hI _) fun _ => .bind (builds_createBlock hI _) fun _ =>
      .bind (builds_check _ _) fun _ => .bind (builds_emitFloatEntries hI _ _ _ _ _) fun _ =>
      .bind (builds_emitFloatDispatch hI _ _ _ _ _) fun _ =>
      .bind (builds_emitFloatDispatch hI _ _ _ _ _) fun _ => ?_
    rcases unrolled with - | unrolled
    · exact .bind (hiteration _ _ _ _ _) fun _ => .bind (hiteration _ _ _ _ _) fun _ =>
        builds_emitFloatExit hI _
    · exact .bind (hiteration _ _ _ _ _) fun _ => .bind (hiteration _ _ _ _ _) fun _ =>
        .bind (hiteration _ _ _ _ _) fun _ => .bind (hiteration _ _ _ _ _) fun _ =>
        builds_emitFloatExit hI _
  · refine .bind (.pure _) fun unrolled => .bind (builds_createBlock hI _) fun _ =>
      .bind (builds_createBlock hI _) fun _ => .bind (builds_createBlock hI _) fun _ =>
      .bind (builds_check _ _) fun _ => .bind (builds_emitFloatEntries hI _ _ _ _ _) fun _ =>
      .bind (builds_emitFloatDispatch hI _ _ _ _ _) fun _ =>
      .bind (builds_emitFloatDispatch hI _ _ _ _ _) fun _ => ?_
    rcases unrolled with - | unrolled
    · exact .bind (hiteration _ _ _ _ _) fun _ => .bind (hiteration _ _ _ _ _) fun _ =>
        builds_emitFloatExit hI _
    · exact .bind (hiteration _ _ _ _ _) fun _ => .bind (hiteration _ _ _ _ _) fun _ =>
        .bind (hiteration _ _ _ _ _) fun _ => .bind (hiteration _ _ _ _ _) fun _ =>
        builds_emitFloatExit hI _

end loops

end UniJit.Lua
