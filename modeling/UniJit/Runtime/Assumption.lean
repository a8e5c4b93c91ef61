import UniJit.Lib.Checked
import UniJit.Status

/-!
# Assumptions and assumption sets

An assumption is a one-shot token: code that depends on a fact of the runtime depends on the token,
and invalidating the token withdraws the code. A token knows the contexts of the invocations that
depend on it right now. The dependencies of one compiled function are an `AssumptionSet`, which is
only built by `add`, so no token and no site is in it twice.

Tokens and contexts are objects that are shared by address; a `Token` or a `ContextId` is such an
address.
-/

namespace UniJit.Runtime

open Lib

/-- The identity of an assumption. -/
abbrev Token := Nat

/-- The identity of an execution context. -/
abbrev ContextId := Nat

/-! ## One assumption -/

/-- The state behind a token: whether it still holds, and a context for each subscription. -/
structure Assumption where
  valid : Bool := true
  activeContexts : List ContextId := []
  deriving DecidableEq, Repr

/-- The answers to a subscription. -/
inductive SubscriptionResult
  | subscribed
  | invalid
  | resourceExhausted
  deriving DecidableEq, Repr

namespace Assumption

/-- Register a context. `allocated` is false where the registration runs out of memory. -/
def subscribe (a : Assumption) (context : ContextId) (allocated : Bool) :
    SubscriptionResult × Assumption :=
  if ¬ a.valid then (.invalid, a)
  else if allocated then
    (.subscribed, { a with activeContexts := a.activeContexts ++ [context] })
  else (.resourceExhausted, a)

lemma subscribe_invalid {a : Assumption} (h : a.valid = false) (context : ContextId)
    (allocated : Bool) : a.subscribe context allocated = (.invalid, a) := by
  simp [subscribe, h]

lemma subscribe_exhausted {a : Assumption} (h : a.valid = true) (context : ContextId) :
    a.subscribe context false = (.resourceExhausted, a) := by
  simp [subscribe, h]

/-- A valid assumption registers the context. -/
lemma subscribe_valid {a : Assumption} (h : a.valid = true) (context : ContextId) :
    a.subscribe context true =
      (.subscribed, { a with activeContexts := a.activeContexts ++ [context] }) := by
  simp [subscribe, h]

/-- Remove one registration of a context. -/
def unsubscribe (a : Assumption) (context : ContextId) : Assumption :=
  { a with activeContexts := a.activeContexts.erase context }

end Assumption

/-! ## Sets of dependencies -/

/-- An assumption with the exit that its invalidation takes. -/
structure AssumptionDependency where
  assumption : Token
  site : Nat
  resumeOffset : Nat
  deriving DecidableEq, Repr

/-- The largest site of the runtime ABI. -/
def maximumSite : Nat := 2 ^ 63 - 1

/-- Dependencies on different assumptions. -/
structure AssumptionSet where
  dependencies : List AssumptionDependency := []
  tokens_nodup : (dependencies.map (·.assumption)).Nodup := by simp
  sites_nodup : (dependencies.map (·.site)).Nodup := by simp
  site_le : ∀ d ∈ dependencies, d.site ≤ maximumSite := by simp
  deriving DecidableEq

namespace AssumptionSet

/-- The dependencies of a function that assumes nothing. -/
def empty : AssumptionSet := {}

/-- The condition on which `add` rejects a dependency as a duplicate. -/
def Duplicates (s : AssumptionSet) (assumption : Token) (site : Nat) : Prop :=
  ∃ d ∈ s.dependencies, d.site = site ∨ d.assumption = assumption

/-- Whether a dependency is a duplicate can be computed. -/
instance (s : AssumptionSet) (assumption : Token) (site : Nat) :
    Decidable (s.Duplicates assumption site) :=
  inferInstanceAs (Decidable (∃ d ∈ s.dependencies, d.site = site ∨ d.assumption = assumption))

/-- Adds a dependency, unless it names no assumption or repeats one. -/
def add (s : AssumptionSet) (assumption : Option Token) (site resumeOffset : Nat) :
    Except Status AssumptionSet :=
  match assumption with
  | none =>
      .error ⟨.invalidArgument, "assumption dependency cannot contain a null token", site⟩
  | some assumption =>
      if hsite : maximumSite < site then
        .error ⟨.invalidArgument, "assumption dependency site exceeds the runtime ABI", site⟩
      else if hduplicate : s.Duplicates assumption site then
        .error ⟨.invalidArgument, "assumption dependency duplicates a site or token", site⟩
      else
        .ok
          { dependencies := s.dependencies ++ [⟨assumption, site, resumeOffset⟩]
            tokens_nodup := by
              rw [List.map_append, List.nodup_append]
              refine ⟨s.tokens_nodup, by simp, ?_⟩
              intro t ht t' ht' heq
              obtain ⟨d, hd, rfl⟩ := List.mem_map.mp ht
              obtain rfl : t' = assumption := by simpa using ht'
              exact hduplicate ⟨d, hd, .inr heq⟩
            sites_nodup := by
              rw [List.map_append, List.nodup_append]
              refine ⟨s.sites_nodup, by simp, ?_⟩
              intro t ht t' ht' heq
              obtain ⟨d, hd, rfl⟩ := List.mem_map.mp ht
              obtain rfl : t' = site := by simpa using ht'
              exact hduplicate ⟨d, hd, .inl heq⟩
            site_le := by
              intro d hd
              rcases List.mem_append.mp hd with hd | hd
              · exact s.site_le d hd
              · obtain rfl : d = ⟨assumption, site, resumeOffset⟩ := by simpa using hd
                exact not_lt.mp hsite }

/-- The dependency of a site. -/
def find (s : AssumptionSet) (site : Nat) : Option AssumptionDependency :=
  s.dependencies.find? (·.site = site)

/-- The first dependency whose token does not hold any more. -/
def firstInvalid (s : AssumptionSet) (valid : Token → Bool) : Option AssumptionDependency :=
  s.dependencies.find? fun d => ¬ valid d.assumption

lemma firstInvalid_eq_none {s : AssumptionSet} {valid : Token → Bool} :
    s.firstInvalid valid = none ↔ ∀ d ∈ s.dependencies, valid d.assumption := by
  simp [firstInvalid]

end AssumptionSet

end UniJit.Runtime
