import Mathlib.Tactic
import Mathlib.Data.List.Basic

/-!
# Fallible computations with guard clauses

Validation code reads as a list of guard clauses: a condition, and the error that is returned
when it fails. `require` is one such clause in `Except`. The lemmas below turn "the whole
computation succeeded" into the conjunction of its conditions, so that a proof about validated
data never has to replay the validation.

* `require_eq_ok`, `require_bind_eq_ok`: a clause succeeds exactly when its condition holds;
* `get_bind`: a computation that reads its state continues with it;
* `bind_eq_ok`: a successful sequence is a successful first part and a successful rest;
* `foldExcept`: a loop over a list that may stop with an error, with its invariant rule
  `foldExcept_invariant` and the split at a position `foldExcept_split`;
* `mapM_eq_ok`: a checked map relates each element to its result.
-/

namespace UniJit.Lib

variable {ε α β σ : Type}

/-- One guard clause: continue when `c` holds, stop with `e` otherwise. -/
def require (c : Prop) [Decidable c] (e : ε) : Except ε Unit :=
  if c then .ok () else .error e

/-- A guard clause succeeds exactly when its condition holds. -/
@[simp] lemma require_eq_ok {c : Prop} [Decidable c] {e : ε} {u : Unit} :
    require c e = .ok u ↔ c := by
  unfold require
  split_ifs with h <;> simp [h]

lemma pure_eq_ok {a b : α} : (pure a : Except ε α) = .ok b ↔ b = a := by
  simp [pure, Except.pure, eq_comm]

/-- A stateful computation that first reads its state. -/
lemma get_bind (k : σ → EStateM ε σ α) (s : σ) : (get >>= k : EStateM ε σ α) s = k s s :=
  rfl

/-- A sequence succeeds exactly when both of its parts do. -/
lemma bind_eq_ok {x : Except ε α} {k : α → Except ε β} {r : β} :
    (x >>= k) = .ok r ↔ ∃ middle, x = .ok middle ∧ k middle = .ok r := by
  rcases x with e | middle
  · simp [Bind.bind, Except.bind]
  · simp [Bind.bind, Except.bind]

/-- A guard clause in front of a computation adds its condition. -/
lemma require_bind_eq_ok {c : Prop} [Decidable c] {e : ε} {f : Unit → Except ε β} {b : β} :
    (require c e >>= f) = .ok b ↔ c ∧ f () = .ok b := by
  rw [bind_eq_ok]
  simp only [require_eq_ok]
  exact ⟨fun ⟨(), hc, hf⟩ => ⟨hc, hf⟩, fun ⟨hc, hf⟩ => ⟨(), hc, hf⟩⟩

/-- A loop of guard clauses succeeds exactly when each iteration does. -/
@[simp] lemma forM_eq_ok {body : α → Except ε Unit} {as : List α} {u : Unit} :
    as.forM body = .ok u ↔ ∀ a ∈ as, body a = .ok () := by
  induction as with
  | nil => simp [List.forM, pure, Except.pure]
  | cons a as ih =>
      change (body a >>= fun _ => as.forM body) = .ok u ↔ _
      rw [bind_eq_ok]
      simp only [ih, List.mem_cons, forall_eq_or_imp]
      exact ⟨fun ⟨(), ha, has⟩ => ⟨ha, has⟩, fun ⟨ha, has⟩ => ⟨(), ha, has⟩⟩

/-- A loop over a list whose body may stop with an error. The index of the element is passed
along, starting at `i`. -/
def foldExcept (body : Nat → α → σ → Except ε σ) : Nat → List α → σ → Except ε σ
  | _, [], s => .ok s
  | i, a :: as, s => do
      let s' ← body i a s
      foldExcept body (i + 1) as s'

@[simp] lemma foldExcept_nil (body : Nat → α → σ → Except ε σ) (i : Nat) (s : σ) :
    foldExcept body i [] s = .ok s := rfl

/-- A fold succeeds item by item. -/
lemma foldExcept_cons_eq_ok {body : Nat → α → σ → Except ε σ} {i : Nat} {a : α} {as : List α}
    {s s' : σ} :
    foldExcept body i (a :: as) s = .ok s' ↔
      ∃ m, body i a s = .ok m ∧ foldExcept body (i + 1) as m = .ok s' := by
  simp [foldExcept, bind_eq_ok]

/-- A successful loop over an appended list is a successful loop over each part. -/
lemma foldExcept_append_eq_ok {body : Nat → α → σ → Except ε σ} {as bs : List α} {i : Nat}
    {s s' : σ} :
    foldExcept body i (as ++ bs) s = .ok s' ↔
      ∃ m, foldExcept body i as s = .ok m ∧ foldExcept body (i + as.length) bs m = .ok s' := by
  induction as generalizing i s with
  | nil => simp
  | cons a as ih =>
      simp only [List.cons_append, foldExcept_cons_eq_ok, ih, List.length_cons,
        Nat.add_comm as.length, Nat.add_assoc]
      constructor
      · rintro ⟨m, hm, k, hk, h⟩
        exact ⟨k, ⟨m, hm, hk⟩, h⟩
      · rintro ⟨k, ⟨m, hm, hk⟩, h⟩
        exact ⟨m, hm, k, hk, h⟩

/-- **Invariant rule**: a property of the loop state that every successful iteration preserves
holds after a successful loop. -/
lemma foldExcept_invariant {body : Nat → α → σ → Except ε σ} (P : Nat → σ → Prop)
    {as : List α} {i : Nat} {s s' : σ}
    (step : ∀ j a t t', as[j - i]? = some a → i ≤ j → P j t → body j a t = .ok t' → P (j + 1) t')
    (start : P i s) (h : foldExcept body i as s = .ok s') : P (i + as.length) s' := by
  induction as generalizing i s with
  | nil =>
      obtain rfl : s = s' := by simpa using h
      simpa using start
  | cons a as ih =>
      obtain ⟨m, hm, hrest⟩ := foldExcept_cons_eq_ok.mp h
      have hfirst : P (i + 1) m := step i a s m (by simp) le_rfl start hm
      have hstep : ∀ j b t t', as[j - (i + 1)]? = some b → i + 1 ≤ j → P j t →
          body j b t = .ok t' → P (j + 1) t' := by
        intro j b t t' hb hj
        refine step j b t t' ?_ (by omega)
        have : j - i = (j - (i + 1)) + 1 := by omega
        rw [this, List.getElem?_cons_succ]
        exact hb
      have := ih hstep hfirst hrest
      simpa [Nat.add_assoc, Nat.add_comm 1] using this

/-- A successful loop ran its body successfully at every position, from the state that the
earlier positions produced. -/
lemma foldExcept_split {body : Nat → α → σ → Except ε σ} {as : List α} {s s' : σ}
    (h : foldExcept body 0 as s = .ok s') {i : Nat} {a : α} (ha : as[i]? = some a) :
    ∃ m m', foldExcept body 0 (as.take i) s = .ok m ∧ body i a m = .ok m' ∧
      foldExcept body (i + 1) (as.drop (i + 1)) m' = .ok s' := by
  have hi : i < as.length := (List.getElem?_eq_some_iff.mp ha).1
  have hcons : as.drop i = a :: as.drop (i + 1) := by
    rw [List.drop_eq_getElem_cons hi]
    simp [(List.getElem?_eq_some_iff.mp ha).2]
  rw [← List.take_append_drop i as, foldExcept_append_eq_ok] at h
  obtain ⟨m, hm, hrest⟩ := h
  rw [List.length_take, Nat.min_eq_left hi.le, Nat.zero_add, hcons,
    foldExcept_cons_eq_ok] at hrest
  obtain ⟨m', hm', hrest⟩ := hrest
  exact ⟨m, m', hm, hm', hrest⟩

/-- A successful loop ran its body successfully at every position. -/
lemma foldExcept_at {body : Nat → α → σ → Except ε σ} {as : List α} {i : Nat} {s s' : σ}
    (h : foldExcept body i as s = .ok s') {j : Nat} {a : α} (ha : as[j]? = some a) :
    ∃ m m', body (i + j) a m = .ok m' := by
  induction as generalizing i j s with
  | nil => simp at ha
  | cons b as ih =>
      obtain ⟨m, hm, hrest⟩ := foldExcept_cons_eq_ok.mp h
      cases j with
      | zero =>
          obtain rfl : b = a := by simpa using ha
          exact ⟨s, m, hm⟩
      | succ j =>
          have := ih hrest (by simpa using ha)
          rwa [Nat.add_assoc, Nat.add_comm 1] at this

/-- A loop succeeds when its body leads from each state of a sequence to the next. -/
lemma foldExcept_eq_ok_of_steps {body : Nat → α → σ → Except ε σ} {as : List α} {i : Nat}
    (S : Nat → σ) (h : ∀ j a, as[j]? = some a → body (i + j) a (S (i + j)) = .ok (S (i + j + 1))) :
    foldExcept body i as (S i) = .ok (S (i + as.length)) := by
  induction as generalizing i with
  | nil => rfl
  | cons a as ih =>
      rw [foldExcept_cons_eq_ok]
      refine ⟨S (i + 1), h 0 a rfl, ?_⟩
      have hrest := ih (i := i + 1) fun j b hb => by
        have := h (j + 1) b (by simpa using hb)
        rwa [← Nat.add_assoc, Nat.add_right_comm] at this
      rwa [List.length_cons, ← Nat.add_assoc, Nat.add_right_comm]

/-- **Loops of guard clauses**: when each iteration checks a condition and then updates the state
by a fixed rule, the loop succeeds exactly when every condition holds at the state the rule has
reached. -/
lemma foldExcept_eq_ok_iff {body : Nat → α → σ → Except ε σ} (next : σ → α → σ)
    (P : Nat → α → σ → Prop) (Inv : σ → Prop)
    (hbody : ∀ i a s s', Inv s → (body i a s = .ok s' ↔ P i a s ∧ s' = next s a))
    (hinv : ∀ i a s, Inv s → P i a s → Inv (next s a)) {as : List α} {i : Nat} {s s' : σ}
    (start : Inv s) :
    foldExcept body i as s = .ok s' ↔
      (∀ j a, as[j]? = some a → P (i + j) a ((as.take j).foldl next s)) ∧
        s' = as.foldl next s := by
  induction as generalizing i s with
  | nil => simp [eq_comm]
  | cons a as ih =>
      rw [foldExcept_cons_eq_ok]
      constructor
      · rintro ⟨m, hm, hrest⟩
        obtain ⟨hP, rfl⟩ := (hbody i a s m start).mp hm
        obtain ⟨hall, hlast⟩ := (ih (hinv i a s start hP)).mp hrest
        refine ⟨fun j b hb => ?_, hlast⟩
        cases j with
        | zero =>
            obtain rfl : a = b := by simpa using hb
            simpa using hP
        | succ j =>
            have := hall j b (by simpa using hb)
            simpa [Nat.add_assoc, Nat.add_comm 1] using this
      · rintro ⟨hall, hlast⟩
        have hP : P i a s := by simpa using hall 0 a (by simp)
        refine ⟨next s a, (hbody i a s _ start).mpr ⟨hP, rfl⟩,
          (ih (hinv i a s start hP)).mpr ⟨fun j b hb => ?_, hlast⟩⟩
        have := hall (j + 1) b (by simpa using hb)
        simpa [Nat.add_assoc, Nat.add_comm 1] using this

/-- A checked map succeeds exactly when each element does, with the list of their results. -/
lemma mapM_eq_ok {g : α → Except ε β} {as : List α} {bs : List β} :
    as.mapM g = .ok bs ↔ List.Forall₂ (fun a b => g a = .ok b) as bs := by
  induction as generalizing bs with
  | nil => simp [pure_eq_ok]
  | cons a as ih =>
      simp only [List.mapM_cons, bind_eq_ok, pure_eq_ok, ih]
      constructor
      · rintro ⟨b, hb, bs, hbs, rfl⟩
        exact .cons hb hbs
      · rintro (_ | ⟨hb, hbs⟩)
        exact ⟨_, hb, _, hbs, rfl⟩

end UniJit.Lib
