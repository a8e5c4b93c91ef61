import UniJit.Ir.EmittedValues
import UniJit.Ir.InterpreterAgreement

/-!
# The runs of a straight-line function from its parameters

The first nodes of a straight-line function are its parameters, and running them loads the
arguments. `interpret_eq_resume` starts the run behind them, at the point where the builder of the
function began its work, and `resume_of_setReturn` ends it at the point where the builder recorded
the return value.
-/

namespace UniJit.Ir

open UniJit.Lib UniJit.Runtime

/-- A function without objects needs no bindings. -/
lemma validate_no_objects {Op : Type} (isStore : Op → Bool) (nodes : List (NodeOf Op))
    (context : Option ExecutionContext) : validateTrustedObjectBindings []
      (trustedObjectWritable isStore nodes 0) context = .ok () := by
  have hwritable : trustedObjectWritable isStore nodes 0 = [] := by
    rw [trustedObjectWritable]
    induction nodes with
    | nil => rfl
    | cons n nodes ih =>
        rw [List.foldl_cons]
        simpa using ih
  rw [hwritable]
  rfl

namespace Function

variable {f : Function} {host : Host} {args : List Word}

/-- Loading the arguments keeps the size of the array. -/
lemma length_loadArguments (args : List Word) (count : Nat) (s : Values) :
    (loadArguments args count s).words.length = s.words.length := by
  induction count with
  | zero => rfl
  | succ count ih =>
      rw [loadArguments, List.range_succ, List.foldl_append, List.foldl_cons, List.foldl_nil,
        Values.length_setWord]
      exact ih

/-- A parameter holds its argument. -/
lemma word_loadArguments {count : Nat} {s : Values} {v : Value} (hv : v.index < count)
    (hcount : count ≤ s.words.length) :
    (loadArguments args count s).word v = args.getD v.index 0 := by
  induction count with
  | zero => exact absurd hv (Nat.not_lt_zero _)
  | succ count ih =>
      have hlength := length_loadArguments args count s
      rw [loadArguments, List.range_succ, List.foldl_append, List.foldl_cons, List.foldl_nil]
      by_cases hlast : v.index = count
      · rw [Values.word_setWord_self hlast (by
          rw [← loadArguments, hlength]
          omega), hlast]
      · rw [Values.word_setWord_of_ne hlast]
        exact ih (by omega) (by omega)

variable (host) in
/-- A verified function without objects runs from behind its parameters. -/
lemma interpret_eq_resume (hverify : f.verify = .ok ()) (hbound : f.parameterCount ≤ 2 ^ 64)
    (hobjects : f.trustedObjects = []) (hargs : args.length = f.parameterCount)
    {b : FunctionBuilder} (hb : b.function.nodes.length = f.parameterCount) (m : Machine) :
    ∃ m', f.interpret host args m = f.resume host args b
      (loadArguments args f.parameterCount (Values.zero f.nodes.length)) m' := by
  have verified := verify_eq_ok.mp hverify
  have hbindings : ∀ context, checked (validateTrustedObjectBindings f.trustedObjects
      (trustedObjectWritable (· == .op .storeObject) f.nodes f.trustedObjects.length)
      context) = pure () := by
    intro context
    rw [hobjects]
    exact congrArg checked (validate_no_objects _ _ context)
  have harguments : checked (require (args.length = f.parameterCount)
      ({ code := .invalidArgument
         message := "argument count does not match the function signature" } : Status)) =
      pure () := by
    simp [hargs, require, checked]
  refine ⟨{ Machine.updateContext .clearExit m with
    frame := List.replicate f.frameSlots.length 0 }, ?_⟩
  rw [interpret, hverify, harguments, executeNodes_eq verified hbound, resume, hb]
  simp only [hbindings]
  rfl

variable (host args) in
/-- The function that has its return value, at the point where it was given it. -/
lemma resume_of_setReturn {b b' : FunctionBuilder} {v : Value} (h : b.setReturn v = .ok b')
    (s : Values) (m : Machine) : b.function.PartOf b'.function ∧
      b'.function.nodes.length = b.function.nodes.length ∧
      b'.function.resume host args b s m = .ok (s.word v) m := by
  simp only [FunctionBuilder.setReturn, require_bind_eq_ok, pure_eq_ok] at h
  obtain ⟨-, -, rfl⟩ := h
  refine ⟨⟨rfl, rfl, List.prefix_rfl⟩, rfl, ?_⟩
  simp only [resume, List.drop_length]
  rfl

end Function

end UniJit.Ir
