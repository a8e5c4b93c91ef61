import Mathlib.Tactic

/-!
# Changing one element of a list

A list of records of which a step changes one: what can be at a position afterwards, and how the
number of elements with a property changes.
-/

namespace UniJit.Lib

variable {α : Type}

/-- An element that is changed leaves one count and enters another. -/
lemma countP_modify_add {as : List α} {i : Nat} {a : α} (ha : as[i]? = some a) (f : α → α)
    (p : α → Bool) :
    (as.modify i f).countP p + (if p a then 1 else 0) =
      as.countP p + (if p (f a) then 1 else 0) := by
  induction as generalizing i with
  | nil => simp at ha
  | cons b bs ih =>
      cases i with
      | zero =>
          obtain rfl : b = a := by simpa using ha
          simp only [List.modify_zero_cons, List.countP_cons]
          omega
      | succ i =>
          have hrest := ih (i := i) (by simpa using ha)
          simp only [List.modify_succ_cons, List.countP_cons]
          omega

/-- How exchanging one item changes a count. -/
lemma countP_set_add {as : List α} {i : Nat} {a : α} (ha : as[i]? = some a) (b : α)
    (p : α → Bool) :
    (as.set i b).countP p + (if p a then 1 else 0) = as.countP p + (if p b then 1 else 0) := by
  have h := countP_modify_add ha (fun _ => b) p
  rwa [← List.set_eq_modify] at h

/-- After a change, a position has the new element or what it had. -/
lemma getElem?_set_cases {as : List α} {i j : Nat} {a b : α} (h : (as.set i b)[j]? = some a) :
    (j = i ∧ a = b) ∨ as[j]? = some a := by
  rw [List.getElem?_set] at h
  split_ifs at h with h₁ h₂
  · exact .inl ⟨h₁.symm, (Option.some.inj h).symm⟩
  · exact .inr h

/-- A property that the changed element keeps holds of an element afterwards exactly when it holds of
the new one or held of one before. -/
lemma exists_mem_set_iff {as : List α} {i : Nat} {a b : α} {P : α → Prop} (ha : as[i]? = some a)
    (hkeep : P a → P b) : (∃ x ∈ as.set i b, P x) ↔ P b ∨ ∃ x ∈ as, P x := by
  have hlt := (List.getElem?_eq_some_iff.mp ha).1
  constructor
  · rintro ⟨x, hx, hP⟩
    rcases List.mem_or_eq_of_mem_set hx with hx | rfl
    · exact .inr ⟨x, hx, hP⟩
    · exact .inl hP
  · rintro (hP | ⟨x, hx, hP⟩)
    · exact ⟨b, List.mem_of_getElem? (List.getElem?_set_self hlt), hP⟩
    · obtain ⟨k, hk⟩ := List.mem_iff_getElem?.mp hx
      by_cases hki : k = i
      · subst hki
        obtain rfl := Option.some.inj (hk.symm.trans ha)
        exact ⟨b, List.mem_of_getElem? (List.getElem?_set_self hlt), hkeep hP⟩
      · refine ⟨x, List.mem_of_getElem? (i := k) ?_, hP⟩
        rw [List.getElem?_set_ne (Ne.symm hki), hk]

/-- The elements of a list counted from its end: those of the tail keep their numbers. -/
lemma getElem?_reverse_cons {a b : α} {as : List α} {n : Nat} :
    (a :: as).reverse[n]? = some b ↔ (n = as.length ∧ b = a) ∨ as.reverse[n]? = some b := by
  rw [List.reverse_cons, List.getElem?_append, List.length_reverse]
  split_ifs with h
  · constructor
    · exact .inr
    · rintro (⟨rfl, -⟩ | h')
      · exact absurd h (lt_irrefl _)
      · exact h'
  · have hnone : as.reverse[n]? = none := List.getElem?_eq_none (by simpa using h)
    rw [hnone, List.getElem?_singleton]
    split_ifs with hn
    · simp only [Option.some.injEq, or_false]
      constructor
      · intro hb
        exact ⟨by omega, hb.symm⟩
      · exact fun hb => hb.2.symm
    · simp only [or_false, false_iff, not_and]
      omega

end UniJit.Lib
