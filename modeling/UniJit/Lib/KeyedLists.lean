import Mathlib.Tactic
import Mathlib.Data.List.Forall2

/-!
# Keyed lists

A list whose elements have distinct keys is a finite map that remembers the order of insertion: the
first element with a key is the only one, and an element may be appended when its key is new.
-/

namespace UniJit.Lib

variable {α β κ : Type} {key : α → κ}

/-- An element can be appended exactly when its key is new. -/
lemma nodup_map_concat {as : List α} (hnodup : (as.map key).Nodup) (a : α) :
    ((as ++ [a]).map key).Nodup ↔ ∀ b ∈ as, key b ≠ key a := by
  rw [List.map_append, List.map_singleton, List.nodup_append]
  constructor
  · rintro ⟨-, -, hdisjoint⟩ b hmem
    exact hdisjoint _ (List.mem_map_of_mem hmem) _ (List.mem_singleton_self _)
  · intro hne
    refine ⟨hnodup, List.nodup_singleton _, ?_⟩
    intro k hk k' hk'
    obtain ⟨b, hmem, rfl⟩ := List.mem_map.mp hk
    obtain rfl := List.mem_singleton.mp hk'
    exact hne b hmem

/-- The only element with a property is found. -/
lemma find?_eq_some_of_only {as : List α} {q : α → Bool} {a : α} (hmem : a ∈ as) (ha : q a = true)
    (honly : ∀ b ∈ as, q b = true → b = a) : as.find? q = some a := by
  rcases hfind : as.find? q with - | b
  · exact absurd ha (List.find?_eq_none.mp hfind a hmem)
  · rw [honly b (List.mem_of_find?_eq_some hfind) (List.find?_some hfind)]

variable [DecidableEq κ]

/-- A key is not found exactly when no item has it. -/
lemma find?_key_eq_none {as : List α} {k : κ} :
    as.find? (fun a => key a = k) = none ↔ ∀ a ∈ as, key a ≠ k := by
  simp

/-- The first element with a key is the only one. -/
lemma find?_key_eq_some {as : List α} (hnodup : (as.map key).Nodup) {k : κ} {a : α} :
    as.find? (fun a => key a = k) = some a ↔ a ∈ as ∧ key a = k := by
  constructor
  · intro h
    exact ⟨List.mem_of_find?_eq_some h, by simpa using List.find?_some h⟩
  · rintro ⟨hmem, rfl⟩
    cases hfind : as.find? (fun b => key b = key a) with
    | none => exact absurd rfl (find?_key_eq_none.mp hfind a hmem)
    | some b =>
        have hkey : key b = key a := by simpa using List.find?_some hfind
        exact congrArg some
          (List.inj_on_of_nodup_map hnodup (List.mem_of_find?_eq_some hfind) hmem hkey)

omit [DecidableEq κ]

/-- A list is related to some list exactly when each of its elements is related to something. -/
lemma exists_forall₂ {R : α → β → Prop} {as : List α} :
    (∃ bs, List.Forall₂ R as bs) ↔ ∀ a ∈ as, ∃ b, R a b := by
  induction as with
  | nil => simp
  | cons a as ih =>
      rw [List.forall_mem_cons, ← ih]
      constructor
      · rintro ⟨_, _ | ⟨hb, hbs⟩⟩
        exact ⟨⟨_, hb⟩, _, hbs⟩
      · rintro ⟨⟨b, hb⟩, bs, hbs⟩
        exact ⟨b :: bs, .cons hb hbs⟩

/-- Each element on the left of a relation between lists has a partner on the right. -/
lemma exists_mem_right {R : α → β → Prop} {as : List α} {bs : List β} (h : List.Forall₂ R as bs)
    {a : α} (ha : a ∈ as) : ∃ b ∈ bs, R a b := by
  induction h with
  | nil => cases ha
  | cons hr _ ih =>
      rcases List.mem_cons.mp ha with rfl | hrest
      · exact ⟨_, List.mem_cons_self, hr⟩
      · obtain ⟨b, hb, hr⟩ := ih hrest
        exact ⟨b, List.mem_cons_of_mem _ hb, hr⟩

/-- Related lists have the same keys, if related elements have. -/
lemma map_key_eq {R : α → β → Prop} {key' : β → κ} (hkey : ∀ a b, R a b → key' b = key a)
    {as : List α} {bs : List β} (h : List.Forall₂ R as bs) : bs.map key' = as.map key := by
  induction h with
  | nil => rfl
  | cons hr _ ih => rw [List.map_cons, List.map_cons, ih, hkey _ _ hr]

end UniJit.Lib
