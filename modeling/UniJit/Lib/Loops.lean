import Mathlib.Tactic
import Mathlib.Data.List.Basic

/-!
# Invariants of loops

Rules for the two kinds of loops that a state-passing translation produces.

A counted loop is a fold over `List.range n` or over a list with its indices; a property that holds
before the first iteration and that every iteration carries from its index to the next holds at
the end (`foldl_range_invariant`, `foldl_zipIdx_invariant`). A running maximum is at least its start
and every element (`le_foldl_max`, `le_foldl_max_of_mem`).

A `while (changed)` loop repeats a sweep over its state until a sweep leaves the state as it is.
`stabilize` is that loop with an explicit bound on the number of sweeps. When each sweep that
changes the state lowers a natural-number measure, a bound of at least the measure is no
restriction: the loop ends at a state that the sweep leaves unchanged (`stabilize_fixed`).
Properties that a sweep preserves hold of the result (`stabilize_invariant`).
-/

namespace UniJit.Lib

section counted

variable {α σ : Type}

/-- **Invariant rule** for a loop over `0, …, n - 1`. -/
lemma foldl_range_invariant {step : σ → Nat → σ} (P : Nat → σ → Prop) {n : Nat} {s : σ}
    (start : P 0 s) (next : ∀ i s, i < n → P i s → P (i + 1) (step s i)) :
    P n ((List.range n).foldl step s) := by
  have hrun : ∀ i, i ≤ n → P i ((List.range i).foldl step s) := by
    intro i hi
    induction i with
    | zero => exact start
    | succ i ih =>
        rw [List.range_succ, List.foldl_append]
        exact next i _ (by omega) (ih (by omega))
  exact hrun n le_rfl

/-- **Invariant rule** for a loop over a list with its indices. -/
lemma foldl_zipIdx_invariant {step : σ → α × Nat → σ} (P : Nat → σ → Prop) {as : List α} {s : σ}
    (start : P 0 s) (next : ∀ i a s, as[i]? = some a → P i s → P (i + 1) (step s (a, i))) :
    P as.length (as.zipIdx.foldl step s) := by
  have hrun : ∀ i, i ≤ as.length → P i ((as.zipIdx.take i).foldl step s) := by
    intro i hi
    induction i with
    | zero => exact start
    | succ i ih =>
        have hlt : i < as.length := by omega
        have hget : as.zipIdx[i]? = some (as[i], i) := by
          simp [List.getElem?_zipIdx, List.getElem?_eq_getElem hlt]
        rw [List.take_add_one, hget, Option.toList_some, List.foldl_append]
        exact next i _ _ (List.getElem?_eq_getElem hlt) (ih (by omega))
  have hall := hrun as.length le_rfl
  rwa [List.take_of_length_le (by simp)] at hall

/-- A running maximum is at least its start. -/
lemma le_foldl_max (g : α → Nat) (as : List α) (m : Nat) :
    m ≤ as.foldl (fun m a => max m (g a)) m := by
  induction as generalizing m with
  | nil => exact le_rfl
  | cons a as ih => exact (le_max_left _ _).trans (ih _)

/-- A running maximum is at least each item. -/
lemma le_foldl_max_of_mem (g : α → Nat) {as : List α} {a : α} (h : a ∈ as) (m : Nat) :
    g a ≤ as.foldl (fun m a => max m (g a)) m := by
  induction as generalizing m with
  | nil => cases h
  | cons b as ih =>
      rcases List.mem_cons.mp h with rfl | h
      · exact (le_max_right _ _).trans (le_foldl_max g as _)
      · exact ih h _

end counted

variable {α : Type}

/-- A list below another one, element by element, is the same list or has a smaller total. -/
lemma eq_or_sum_lt_of_forall₂ {R : α → α → Prop} {weight : α → Nat}
    (smaller : ∀ a b, R a b → a = b ∨ weight a < weight b) {as bs : List α}
    (h : List.Forall₂ R as bs) : as = bs ∨ (as.map weight).sum < (bs.map weight).sum := by
  induction h with
  | nil => exact .inl rfl
  | @cons a b as bs hab _ ih =>
      simp only [List.map_cons, List.sum_cons, List.cons.injEq]
      rcases smaller a b hab with rfl | hlt
      · rcases ih with rfl | hlt
        · exact .inl ⟨rfl, rfl⟩
        · exact .inr (by omega)
      · rcases ih with rfl | hlt'
        · exact .inr (by omega)
        · exact .inr (by omega)

variable [DecidableEq α]

/-- Repeat `sweep` until it changes nothing, at most `fuel` times. -/
def stabilize (sweep : α → α) : Nat → α → α
  | 0, a => a
  | fuel + 1, a => if sweep a = a then a else stabilize sweep fuel (sweep a)

/-- **Invariant rule** for `stabilize`. -/
lemma stabilize_invariant {sweep : α → α} (P : α → Prop) (step : ∀ a, P a → P (sweep a))
    {fuel : Nat} {a : α} (start : P a) : P (stabilize sweep fuel a) := by
  induction fuel generalizing a with
  | zero => exact start
  | succ fuel ih =>
      rw [stabilize]
      split_ifs with h
      · exact start
      · exact ih (step a start)

/-- **Termination rule**: if every sweep that changes a state with the invariant `P` lowers
`measure`, then `measure a` sweeps reach a state that the sweep leaves unchanged. -/
lemma stabilize_fixed {sweep : α → α} (P : α → Prop) (measure : α → Nat)
    (step : ∀ a, P a → P (sweep a))
    (decreases : ∀ a, P a → sweep a ≠ a → measure (sweep a) < measure a)
    {fuel : Nat} {a : α} (start : P a) (enough : measure a ≤ fuel) :
    sweep (stabilize sweep fuel a) = stabilize sweep fuel a := by
  induction fuel generalizing a with
  | zero =>
      by_contra h
      have := decreases a start h
      omega
  | succ fuel ih =>
      rw [stabilize]
      split_ifs with h
      · exact h
      · have := decreases a start h
        exact ih (step a start) (by omega)

end UniJit.Lib
