import Mathlib.Tactic

/-!
# Runs that succeed

What a successful run says about the parts of a computation: a sequence succeeds when its parts
succeed one after the other. The lemmas are equivalences, for the inversion of the runs of
translators; `OnSuccess` is what a success says whatever the state was, and `Maintains` an invariant
of the state that a success leaves in force.
-/

namespace UniJit.Lib

variable {ε σ α β : Type} {s s' : σ}

/-- Two parts succeed exactly when the second does after the first. -/
lemma bind_run_eq_ok {x : EStateM ε σ α} {k : α → EStateM ε σ β} {b : β} :
    (x >>= k) s = .ok b s' ↔ ∃ a t, x s = .ok a t ∧ k a t = .ok b s' := by
  show EStateM.bind x k s = _ ↔ _
  unfold EStateM.bind
  cases x s with
  | ok a t => simp
  | error e t => simp

/-- A result succeeds with itself. -/
lemma pure_run_eq_ok {a b : α} :
    (pure a : EStateM ε σ α) s = .ok b s' ↔ a = b ∧ s = s' := by
  show EStateM.Result.ok a s = _ ↔ _
  simp

/-- An error does not succeed. -/
lemma throw_run_ne_ok {e : ε} {b : α} : (throw e : EStateM ε σ α) s ≠ .ok b s' := by
  show EStateM.Result.error e s ≠ _
  simp

/-- A choice succeeds as the chosen part does. -/
lemma ite_run_eq_ok {c : Prop} [Decidable c] {x y : EStateM ε σ α} {b : α} :
    (if c then x else y) s = .ok b s' ↔ c ∧ x s = .ok b s' ∨ ¬c ∧ y s = .ok b s' := by
  split_ifs with h <;> simp [h]

/-- Whenever a computation succeeds, `P` holds. -/
def OnSuccess (x : EStateM ε σ α) (P : Prop) : Prop := ∀ s a s', x s = .ok a s' → P

/-- What the second part shows, both together show. -/
lemma OnSuccess.bind {x : EStateM ε σ α} {k : α → EStateM ε σ β} {P : Prop}
    (h : ∀ a, OnSuccess (k a) P) : OnSuccess (x >>= k) P := by
  intro s b s' hrun
  obtain ⟨a, t, -, hrest⟩ := bind_run_eq_ok.mp hrun
  exact h a t b s' hrest

lemma OnSuccess.and {x : EStateM ε σ α} {P Q : Prop} (hP : OnSuccess x P) (hQ : OnSuccess x Q) :
    OnSuccess x (P ∧ Q) := fun s a s' hrun => ⟨hP s a s' hrun, hQ s a s' hrun⟩

/-- Both parts of a sequence contribute. -/
lemma OnSuccess.both {x : EStateM ε σ α} {k : α → EStateM ε σ β} {P Q : Prop} (hx : OnSuccess x P)
    (hk : ∀ a, OnSuccess (k a) Q) : OnSuccess (x >>= k) (P ∧ Q) := by
  intro s b s' hrun
  obtain ⟨a, t, hfirst, hrest⟩ := bind_run_eq_ok.mp hrun
  exact ⟨hx s a t hfirst, hk a t b s' hrest⟩

/-! ## Invariants of the state -/

/-- A computation that starts where `I` holds, and that succeeds, ends where `I` holds. -/
def Maintains (I : σ → Prop) (x : EStateM ε σ α) : Prop := ∀ s a s', I s → x s = .ok a s' → I s'

namespace Maintains

variable {I : σ → Prop}

/-- A result maintains every invariant. -/
lemma pure (a : α) : Maintains I (Pure.pure a : EStateM ε σ α) := by
  intro s b s' hs hrun
  obtain ⟨-, rfl⟩ := pure_run_eq_ok.mp hrun
  exact hs

lemma throw (e : ε) : Maintains I (throw e : EStateM ε σ α) :=
  fun _ _ _ _ hrun => absurd hrun throw_run_ne_ok

/-- A sequence, whose second part is given what the first one can give. -/
lemma bind_of {x : EStateM ε σ α} {k : α → EStateM ε σ β} (hx : Maintains I x)
    (hk : ∀ s a s', x s = .ok a s' → Maintains I (k a)) : Maintains I (x >>= k) := by
  intro s b s' hs hrun
  obtain ⟨a, t, hfirst, hrest⟩ := bind_run_eq_ok.mp hrun
  exact hk s a t hfirst t b s' (hx s a t hs hfirst) hrest

lemma bind {x : EStateM ε σ α} {k : α → EStateM ε σ β} (hx : Maintains I x)
    (hk : ∀ a, Maintains I (k a)) : Maintains I (x >>= k) := bind_of hx fun _ a _ _ => hk a

/-- A choice maintains what both sides do. -/
lemma ite {c : Prop} [Decidable c] {x y : EStateM ε σ α} (hx : Maintains I x)
    (hy : Maintains I y) : Maintains I (if c then x else y) := by
  split_ifs
  · exact hx
  · exact hy

end Maintains

end UniJit.Lib
