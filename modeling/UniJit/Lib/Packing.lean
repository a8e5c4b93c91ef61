import Mathlib.Tactic
import Mathlib.Logic.Function.Basic

/-!
# Packing slots one after another

Frame layout by a bump pointer: a key of width `w` receives the interval `[s, s + w)` of slot
numbers at or after the current limit, and the limit moves behind it. `Packed` says that all
intervals handed out so far lie below the limit and do not overlap; handing out another one at
or after the limit keeps this (`Packed.assign`).
-/

namespace UniJit.Lib

variable {κ : Type}

/-- The intervals of `slot`, of the given widths, lie between `base` and `limit` and are pairwise
disjoint. -/
structure Packed (width : κ → Nat) (base limit : Nat) (slot : κ → Option Nat) : Prop where
  above : ∀ k s, slot k = some s → base ≤ s
  below : ∀ k s, slot k = some s → s + width k ≤ limit
  disjoint : ∀ k l s t, k ≠ l → slot k = some s → slot l = some t →
    s + width k ≤ t ∨ t + width l ≤ s

variable {width : κ → Nat} {base limit : Nat} {slot : κ → Option Nat}

/-- Nothing is packed. -/
lemma Packed.empty : Packed width base limit fun _ => none where
  above := by simp
  below := by simp
  disjoint := by simp

/-- A larger limit is a limit. -/
lemma Packed.mono {limit' : Nat} (h : Packed width base limit slot) (hle : limit ≤ limit') :
    Packed width base limit' slot where
  above := h.above
  below k s hs := (h.below k s hs).trans hle
  disjoint := h.disjoint

/-- An interval at or after the limit overlaps none of the earlier ones. -/
lemma Packed.assign [DecidableEq κ] {k : κ} {s limit' : Nat} (h : Packed width base limit slot)
    (hbase : base ≤ limit) (hs : limit ≤ s) (hlimit : s + width k ≤ limit') :
    Packed width base limit' (Function.update slot k (some s)) := by
  have hcase : ∀ l t, Function.update slot k (some s) l = some t →
      l = k ∧ t = s ∨ l ≠ k ∧ slot l = some t := by
    intro l t ht
    by_cases hl : l = k
    · subst hl
      rw [Function.update_self] at ht
      exact .inl ⟨rfl, (Option.some.inj ht).symm⟩
    · rw [Function.update_of_ne hl] at ht
      exact .inr ⟨hl, ht⟩
  refine ⟨fun l t ht => ?_, fun l t ht => ?_, fun l m t u hne ht hu => ?_⟩
  · obtain ⟨-, rfl⟩ | ⟨-, ht⟩ := hcase l t ht
    · omega
    · exact h.above l t ht
  · obtain ⟨rfl, rfl⟩ | ⟨-, ht⟩ := hcase l t ht
    · exact hlimit
    · have := h.below l t ht
      omega
  · obtain ⟨rfl, rfl⟩ | ⟨-, ht'⟩ := hcase l t ht
    · obtain ⟨rfl, -⟩ | ⟨-, hu'⟩ := hcase m u hu
      · exact absurd rfl hne
      · have := h.below m u hu'
        omega
    · obtain ⟨rfl, rfl⟩ | ⟨-, hu'⟩ := hcase m u hu
      · have := h.below l t ht'
        omega
      · exact h.disjoint l m t u hne ht' hu'

end UniJit.Lib
