import Mathlib.Tactic

/-!
# Runs of a transition system

A component that several parties drive is a partial function `step`: in a state, an event either
is not enabled or leads to the next state. A run takes a list of events from a state; an
interleaving of the parties' steps is such a list. `afterEvents` is the state a run ends in.

Facts about all runs come from facts about one step: an invariant that every step preserves
(`invariant`), an invariant that is preserved as long as every step meets a side condition
(`invariant_along`), and a relation between the start and the end of a run (`related`).

What a run shows to the outside is `outputs`. A potential that every output uses up bounds their
number (`length_outputs_le`).
-/

namespace UniJit.Lib.Transitions

variable {σ ε : Type}

/-- The state after a list of events, when each of them is enabled in its turn. -/
def afterEvents (step : σ → ε → Option σ) : σ → List ε → Option σ
  | s, [] => some s
  | s, e :: es => do
      let s' ← step s e
      afterEvents step s' es

/-- Every step of a run, as far as it goes, meets a condition on its state and event. -/
def Along (step : σ → ε → Option σ) (C : σ → ε → Prop) : σ → List ε → Prop
  | _, [] => True
  | s, e :: es => C s e ∧ ∀ s', step s e = some s' → Along step C s' es

/-- Whether a condition holds along a run can be computed. -/
instance decidableAlong (step : σ → ε → Option σ) (C : σ → ε → Prop) [∀ s e, Decidable (C s e)] :
    ∀ (s : σ) (es : List ε), Decidable (Along step C s es)
  | _, [] => .isTrue trivial
  | s, e :: es =>
      match hstep : step s e with
      | none => decidable_of_iff (C s e) (by simp [Along, hstep])
      | some s' =>
          have := decidableAlong step C s' es
          decidable_of_iff (C s e ∧ Along step C s' es) (by simp [Along, hstep])

variable {step : σ → ε → Option σ}

/-- A run goes event by event. -/
lemma afterEvents_cons {s t : σ} {e : ε} {es : List ε} :
    afterEvents step s (e :: es) = some t ↔
      ∃ s', step s e = some s' ∧ afterEvents step s' es = some t := by
  simp [afterEvents, Option.bind_eq_some_iff]

/-- **Invariant rule** for runs whose steps all meet a side condition. -/
lemma invariant_along {C : σ → ε → Prop} {I : σ → Prop}
    (preserved : ∀ s e s', I s → C s e → step s e = some s' → I s') {s t : σ} {es : List ε}
    (start : I s) (along : Along step C s es) (run : afterEvents step s es = some t) : I t := by
  induction es generalizing s with
  | nil =>
      obtain rfl : s = t := by simpa [afterEvents] using run
      exact start
  | cons e es ih =>
      obtain ⟨s', hstep, hrest⟩ := afterEvents_cons.mp run
      exact ih (preserved s e s' start along.1 hstep) (along.2 s' hstep) hrest

/-- The trivial condition holds along every run. -/
lemma along_true (s : σ) (es : List ε) : Along step (fun _ _ => True) s es := by
  induction es generalizing s with
  | nil => trivial
  | cons e es ih => exact ⟨trivial, fun s' _ => ih s'⟩

/-- A condition on the events alone. -/
lemma along_of_forall {C : ε → Prop} {s : σ} {es : List ε} (h : ∀ e ∈ es, C e) :
    Along step (fun _ e => C e) s es := by
  induction es generalizing s with
  | nil => trivial
  | cons e es ih =>
      exact ⟨h e List.mem_cons_self, fun _ _ => ih fun e' he' => h e' (List.mem_cons_of_mem e he')⟩

/-- **Invariant rule**: what holds at the start and is preserved by every step holds at the end. -/
lemma invariant {I : σ → Prop} (preserved : ∀ s e s', I s → step s e = some s' → I s')
    {s t : σ} {es : List ε} (start : I s) (run : afterEvents step s es = some t) : I t :=
  invariant_along (C := fun _ _ => True) (fun s e s' hI _ => preserved s e s' hI) start
    (along_true s es) run

/-- **Relation rule**: a reflexive and transitive relation that every step from a state with the
invariant respects relates the start of a run to its end. -/
lemma related {I : σ → Prop} {R : σ → σ → Prop}
    (preserved : ∀ s e s', I s → step s e = some s' → I s') (refl : ∀ s, R s s)
    (trans : ∀ s t u, R s t → R t u → R s u) (respects : ∀ s e s', I s → step s e = some s' → R s s')
    {s t : σ} {es : List ε} (start : I s) (run : afterEvents step s es = some t) : R s t := by
  induction es generalizing s with
  | nil =>
      obtain rfl : s = t := by simpa [afterEvents] using run
      exact refl s
  | cons e es ih =>
      obtain ⟨s', hstep, hrest⟩ := afterEvents_cons.mp run
      exact trans s s' t (respects s e s' start hstep) (ih (preserved s e s' start hstep) hrest)

/-! ## Outputs -/

variable {α : Type}

/-- What the steps of a run give out, in order, as far as the run goes. -/
def outputs (step : σ → ε → Option σ) (out : σ → ε → Option α) : σ → List ε → List α
  | _, [] => []
  | s, e :: es =>
      match step s e with
      | none => []
      | some s' => (out s e).toList ++ outputs step out s' es

variable {out : σ → ε → Option α}

/-- **Potential rule**: when no step raises a potential and each output lowers it, a run gives out
no more than the potential it starts with. -/
lemma length_outputs_le {C : σ → ε → Prop} {potential : σ → Nat}
    (lowers : ∀ s e s', C s e → step s e = some s' →
      potential s' + (out s e).toList.length ≤ potential s) {s : σ} {es : List ε}
    (along : Along step C s es) : (outputs step out s es).length ≤ potential s := by
  induction es generalizing s with
  | nil => exact Nat.zero_le _
  | cons e es ih =>
      unfold outputs
      split
      · exact Nat.zero_le _
      next s' hstep =>
        have hrest := ih (along.2 s' hstep)
        have hlower := lowers s e s' along.1 hstep
        rw [List.length_append]
        omega

/-- The condition of a run and what its outputs never are meet at every step. -/
lemma along_outputs {C : σ → ε → Prop} {a : α} {s : σ} {es : List ε} (along : Along step C s es)
    (never : a ∉ outputs step out s es) :
    Along step (fun s e => C s e ∧ (step s e ≠ none → out s e ≠ some a)) s es := by
  induction es generalizing s with
  | nil => trivial
  | cons e es ih =>
      refine ⟨⟨along.1, ?_⟩, ?_⟩
      · intro henabled hout
        obtain ⟨s', hstep⟩ := Option.ne_none_iff_exists'.mp henabled
        apply never
        simp [outputs, hstep, hout]
      · intro s' hstep
        apply ih (along.2 s' hstep)
        intro hmem
        apply never
        simp [outputs, hstep, hmem]

end UniJit.Lib.Transitions
