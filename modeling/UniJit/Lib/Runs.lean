import Mathlib.Tactic

/-!
# Postconditions of stateful runs

A computation of `EStateM` takes a state, and returns a result or stops with an error, in either
case with a new state. `Ensures x E Q` says that from every state `x` returns a result with `Q` or
stops with an error with `E`. The state itself is not constrained: these are the rules for facts
that hold whatever the state is, such as "the computation never stops with an error of this kind".
-/

namespace UniJit.Lib

variable {ε δ σ α β : Type}

/-- From every state, a run returns a result with `Q` or stops with an error with `E`. -/
def Ensures (x : EStateM ε σ α) (E : ε → Prop) (Q : α → Prop) : Prop :=
  ∀ s, match x s with
    | .ok a _ => Q a
    | .error e _ => E e

namespace Ensures

/-- A result ensures what holds of it. -/
lemma pure {a : α} {E : ε → Prop} {Q : α → Prop} (h : Q a) :
    Ensures (Pure.pure a : EStateM ε σ α) E Q :=
  fun _ => h

/-- Two parts ensure what the second does after the first. -/
lemma bind {x : EStateM ε σ α} {k : α → EStateM ε σ β} {E : ε → Prop} {P : α → Prop}
    {Q : β → Prop} (hx : Ensures x E P) (hk : ∀ a, P a → Ensures (k a) E Q) :
    Ensures (x >>= k) E Q := by
  intro s
  have hs := hx s
  show match EStateM.bind x k s with
    | .ok a _ => Q a
    | .error e _ => E e
  unfold EStateM.bind
  cases hrun : x s with
  | ok a s' =>
      rw [hrun] at hs
      exact hk a hs s'
  | error e s' =>
      rw [hrun] at hs
      exact hs

/-- Weaker descriptions are ensured too. -/
lemma mono {x : EStateM ε σ α} {E F : ε → Prop} {P Q : α → Prop} (h : Ensures x E P)
    (herror : ∀ e, E e → F e) (hresult : ∀ a, P a → Q a) : Ensures x F Q := by
  intro s
  have hs := h s
  cases hrun : x s with
  | ok a s' =>
      rw [hrun] at hs
      exact hresult a hs
  | error e s' =>
      rw [hrun] at hs
      exact herror e hs

/-- The result of a run that succeeds. -/
lemma of_ok {x : EStateM ε σ α} {E : ε → Prop} {Q : α → Prop} (h : Ensures x E Q) {s s' : σ}
    {a : α} (hrun : x s = .ok a s') : Q a := by
  have hs := h s
  rwa [hrun] at hs

/-- The error of a run that stops. -/
lemma of_error {x : EStateM ε σ α} {E : ε → Prop} {Q : α → Prop} (h : Ensures x E Q) {s s' : σ}
    {e : ε} (hrun : x s = .error e s') : E e := by
  have hs := h s
  rwa [hrun] at hs

/-- A computation inside another kind of error. -/
lemma adaptExcept {x : EStateM δ σ α} {wrap : δ → ε} {E : ε → Prop} {Q : α → Prop}
    (h : Ensures x (fun d => E (wrap d)) Q) : Ensures (EStateM.adaptExcept wrap x) E Q := by
  intro s
  have hs := h s
  unfold EStateM.adaptExcept
  cases hrun : x s with
  | ok a s' =>
      rw [hrun] at hs
      exact hs
  | error d s' =>
      rw [hrun] at hs
      exact hs

/-- A mapped result ensures what holds of its image. -/
lemma map {x : EStateM ε σ α} {f : α → β} {E : ε → Prop} {Q : β → Prop}
    (h : Ensures x E fun a => Q (f a)) : Ensures (f <$> x) E Q := by
  intro s
  have hs := h s
  show match EStateM.map f x s with
    | .ok a _ => Q a
    | .error e _ => E e
  unfold EStateM.map
  cases hrun : x s with
  | ok a s' =>
      rw [hrun] at hs
      exact hs
  | error e s' =>
      rw [hrun] at hs
      exact hs

/-- Two postconditions at once. -/
lemma and {x : EStateM ε σ α} {E F : ε → Prop} {P Q : α → Prop} (hP : Ensures x E P)
    (hQ : Ensures x F Q) : Ensures x (fun e => E e ∧ F e) fun a => P a ∧ Q a := by
  intro s
  have hp := hP s
  have hq := hQ s
  cases hrun : x s with
  | ok a s' =>
      rw [hrun] at hp hq
      exact ⟨hp, hq⟩
  | error e s' =>
      rw [hrun] at hp hq
      exact ⟨hp, hq⟩

/-- Nothing is claimed of a run. -/
lemma trivial {x : EStateM ε σ α} : Ensures x (fun _ => True) fun _ => True := by
  intro s
  cases x s <;> exact True.intro

end Ensures

/-! ## Two runs side by side -/

/-- From every state, two runs return related results or stop with related errors, and leave the
same state. -/
def Matches {γ : Type} (x : EStateM ε σ α) (y : EStateM δ σ γ) (E : ε → δ → Prop)
    (R : α → γ → Prop) : Prop :=
  ∀ s, match x s, y s with
    | .ok a s', .ok c t' => s' = t' ∧ R a c
    | .error e s', .error d t' => s' = t' ∧ E e d
    | _, _ => False

namespace Matches

variable {γ ζ : Type} {E : ε → δ → Prop} {R : α → γ → Prop} {S : β → ζ → Prop}

/-- Related results match. -/
lemma pure {a : α} {c : γ} (h : R a c) :
    Matches (Pure.pure a : EStateM ε σ α) (Pure.pure c : EStateM δ σ γ) E R :=
  fun _ => ⟨rfl, h⟩

/-- Related errors match. -/
lemma throw {e : ε} {d : δ} (h : E e d) :
    Matches (MonadExcept.throw e : EStateM ε σ α) (MonadExcept.throw d : EStateM δ σ γ) E R :=
  fun _ => ⟨rfl, h⟩

/-- A run matches itself. -/
lemma refl {x : EStateM ε σ α} {E : ε → ε → Prop} (h : ∀ e, E e e) : Matches x x E (· = ·) := by
  intro s
  cases hrun : x s with
  | ok a s' => exact ⟨rfl, rfl⟩
  | error e s' => exact ⟨rfl, h e⟩

/-- Changes of the state alone match. -/
lemma modify {u : σ → σ} : Matches (modify u : EStateM ε σ PUnit) (modify u : EStateM δ σ PUnit) E
    (fun _ _ => True) :=
  fun _ => ⟨rfl, True.intro⟩

lemma get : Matches (get : EStateM ε σ σ) (get : EStateM δ σ σ) E (· = ·) :=
  fun _ => ⟨rfl, rfl⟩

/-- Two parts match when each does. -/
lemma bind {x : EStateM ε σ α} {y : EStateM δ σ γ} {k : α → EStateM ε σ β}
    {l : γ → EStateM δ σ ζ} (hxy : Matches x y E R)
    (hkl : ∀ a c, R a c → Matches (k a) (l c) E S) : Matches (x >>= k) (y >>= l) E S := by
  intro s
  have hs := hxy s
  show match EStateM.bind x k s, EStateM.bind y l s with
    | .ok a s', .ok c t' => s' = t' ∧ S a c
    | .error e s', .error d t' => s' = t' ∧ E e d
    | _, _ => False
  unfold EStateM.bind
  cases hx : x s with
  | ok a s' =>
      rw [hx] at hs
      cases hy : y s with
      | ok c t' =>
          rw [hy] at hs
          obtain ⟨rfl, hR⟩ := hs
          exact hkl a c hR s'
      | error d t' =>
          rw [hy] at hs
          exact hs.elim
  | error e s' =>
      rw [hx] at hs
      cases hy : y s with
      | ok c t' =>
          rw [hy] at hs
          exact hs.elim
      | error d t' =>
          rw [hy] at hs
          exact hs

end Matches

end UniJit.Lib
