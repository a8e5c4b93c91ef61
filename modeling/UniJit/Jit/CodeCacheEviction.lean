import UniJit.Jit.CodeCacheAccounting

/-!
# Eviction order and residency of the code cache

A run records the uses of the keys. While the use clock has not wrapped, the stamp of an entry is
the position of its last use in that record, so that the entry with the least stamp is the one used
longest ago. What is resident stays so until an operation takes it out, and is found while its
assumptions hold.
-/

namespace UniJit.Jit

open UniJit.Lib UniJit.Lib.Transitions UniJit.Runtime

/-- Short of its end the clock gives its next value. -/
lemma CodeCache.nextStamp_of_ne {c : CodeCache} (h : c.accessClock ≠ BitVec.allOnes 64) :
    c.nextStamp = (c.accessClock + 1, { c with accessClock := c.accessClock + 1 }) :=
  if_neg h

namespace CacheRun

open CodeCache

variable {r : CacheRun}

/-! ## Order of eviction -/

/-- When a key was last used: a position in the record of uses, or zero. -/
def lastUse (uses : List CacheKey) (key : CacheKey) : Nat :=
  uses.length - uses.reverse.idxOf key

/-- The last use of the key that is used. -/
lemma lastUse_concat_self (uses : List CacheKey) (key : CacheKey) :
    lastUse (uses ++ [key]) key = uses.length + 1 := by
  simp [lastUse]

/-- Using one key is no use of another. -/
lemma lastUse_concat_of_ne {uses : List CacheKey} {key other : CacheKey} (h : other ≠ key) :
    lastUse (uses ++ [key]) other = lastUse uses other := by
  simp [lastUse, List.idxOf_cons_ne _ h.symm]

/-- Different keys were last used at different times. -/
lemma lastUse_ne {uses : List CacheKey} {key other : CacheKey} (hkey : key ∈ uses)
    (hother : other ∈ uses) (h : key ≠ other) : lastUse uses key ≠ lastUse uses other := by
  intro heq
  have hk : uses.reverse.idxOf key < uses.length := by
    simpa using List.idxOf_lt_length_of_mem (List.mem_reverse.mpr hkey)
  have ho : uses.reverse.idxOf other < uses.length := by
    simpa using List.idxOf_lt_length_of_mem (List.mem_reverse.mpr hother)
  unfold lastUse at heq
  exact h ((List.idxOf_inj (List.mem_reverse.mpr hkey)).mp (by omega))

/-- The use clock counts the uses, and the stamp of an entry is its last use. -/
structure Stamped (r : CacheRun) : Prop where
  clock : r.cache.accessClock.toNat = r.uses.length
  stamp : ∀ e ∈ r.cache.entries, e.2.lastAccess.toNat = lastUse r.uses e.1
  used : ∀ e ∈ r.cache.entries, e.1 ∈ r.uses

/-- Removing entries keeps the stamps right. -/
lemma Stamped.subset (h : Stamped r) {c' : CodeCache}
    (hclock : c'.accessClock = r.cache.accessClock)
    (hentries : ∀ e ∈ c'.entries, e ∈ r.cache.entries) : Stamped { r with cache := c' } := by
  refine ⟨?_, fun e he => h.stamp e (hentries e he), fun e he => h.used e (hentries e he)⟩
  simp only [hclock]
  exact h.clock

/-- A use of a key: the entries of other keys are old ones, and one of the key itself has the next
stamp. -/
lemma Stamped.use (h : Stamped r) (hclock : r.cache.accessClock ≠ BitVec.allOnes 64)
    {c' : CodeCache} {key : CacheKey} (hnext : c'.accessClock = r.cache.accessClock + 1)
    (hother : ∀ e ∈ c'.entries, e.1 ≠ key → e ∈ r.cache.entries)
    (hself : ∀ e ∈ c'.entries, e.1 = key → e.2.lastAccess = r.cache.accessClock + 1) :
    Stamped { r with cache := c', uses := r.uses ++ [key] } := by
  have hlt : r.cache.accessClock.toNat + 1 < 2 ^ 64 := by
    have hle := r.cache.accessClock.isLt
    have hne : r.cache.accessClock.toNat ≠ 2 ^ 64 - 1 := by
      intro heq
      apply hclock
      apply BitVec.eq_of_toNat_eq
      simpa using heq
    omega
  have hsucc : (r.cache.accessClock + 1).toNat = r.uses.length + 1 := by
    rw [BitVec.toNat_add, ← h.clock]
    exact Nat.mod_eq_of_lt hlt
  refine ⟨?_, ?_, ?_⟩
  · simp only [hnext, hsucc, List.length_append, List.length_singleton]
  · intro e he
    by_cases hkey : e.1 = key
    · rw [hself e he hkey, hsucc, hkey, lastUse_concat_self]
    · rw [lastUse_concat_of_ne hkey]
      exact h.stamp e (hother e he hkey)
  · intro e he
    by_cases hkey : e.1 = key
    · simp [hkey]
    · exact List.mem_append_left _ (h.used e (hother e he hkey))

/-- Setting the stamp of a key is a use of it. -/
lemma Stamped.touch (h : Stamped r) {c : CodeCache} (hc : c.accessClock = r.cache.accessClock)
    (hentries : c.entries = r.cache.entries) (hclock : r.cache.accessClock ≠ BitVec.allOnes 64)
    (key : CacheKey) : Stamped { r with cache := c.touch key, uses := r.uses ++ [key] } := by
  have hnext := nextStamp_of_ne (hc ▸ hclock)
  have htouch : (c.touch key).entries = r.cache.entries.map fun e =>
      (e.1, if e.1 = key then { e.2 with lastAccess := c.accessClock + 1 } else e.2) := by
    simp only [CodeCache.touch, hnext, hentries]
  refine h.use hclock ?_ ?_ ?_
  · simp only [CodeCache.touch, hnext, hc]
  · intro e he hne
    rw [htouch] at he
    obtain ⟨old, hold, rfl⟩ := List.mem_map.mp he
    have hkey : old.1 ≠ key := hne
    simpa [hkey] using hold
  · intro e he hkey
    rw [htouch] at he
    obtain ⟨old, hold, rfl⟩ := List.mem_map.mp he
    have hkey : old.1 = key := hkey
    simp [hkey, hc]

/-- A search keeps the stamps right. -/
lemma Stamped.find (h : Stamped r) (hclock : r.cache.accessClock ≠ BitVec.allOnes 64)
    {valid : Token → Bool} {key : CacheKey} {fingerprint : BitVec 64} {found : Option CodeLease}
    {c' : CodeCache} (hfinds : Finds r.cache valid key fingerprint found c') :
    Stamped { r with
      cache := c', uses := if found.isSome then r.uses ++ [key] else r.uses } := by
  cases hfinds with
  | missed => exact h.subset rfl fun e he => he
  | retired => exact h.subset rfl fun e he => (List.mem_filter.mp he).1
  | hit =>
      refine h.touch ?_ ?_ hclock key
      · rfl
      · rfl

/-- The eviction loop keeps the clock and adds no entry. -/
lemma evicts_frame {c c₁ c₂ : CodeCache} {valid : Token → Bool} {key : CacheKey}
    {fingerprint : BitVec 64} {existing : Option CacheEntry} {codeBytes : Nat}
    {victims : List (CacheKey × CacheEntry)} (h : Accounted c)
    (hopened : Opened c valid key fingerprint c₁ existing)
    (hsmall : codeBytes ≤ c.limits.maximumCodeBytes)
    (hevicts : Evicts (c.limits.maximumCodeBytes - codeBytes)
      (c₁.nextCodeGeneration.2.vacated key existing) victims c₂) :
    c₂.accessClock = c.accessClock ∧ ∀ e, e ∈ c₂.entries ↔
      e ∈ c.entries ∧ e.1 ≠ key ∧ e.1 ∉ victims.map (·.1) := by
  obtain ⟨-, hentries, -, -⟩ := hopened.evicted h hsmall hevicts
  have hgeneration : Accounted c₁.nextCodeGeneration.2 :=
    (hopened.accounted h).congr rfl rfl rfl rfl
  have hv : Accounted (c₁.nextCodeGeneration.2.vacated key existing) :=
    hgeneration.vacated hopened.existing
  constructor
  · rw [hevicts.eq hv]
    cases hopened <;> rfl
  · intro e
    rw [hentries]
    unfold dropVictims dropKey
    rw [List.mem_filter, List.mem_filter]
    simp only [decide_eq_true_eq, and_assoc]

/-- A publication keeps the stamps right. -/
lemma Stamped.publish (h : Stamped r) (haccounted : Accounted r.cache)
    (hclock : r.cache.accessClock ≠ BitVec.allOnes 64) {valid : Token → Bool}
    {order : IterationOrder} {key : CacheKey} {fingerprint : BitVec 64}
    {function : Option CompiledCode} {p : CodeCachePublication} {c' : CodeCache}
    (hpublishes : Publishes r.cache valid order key fingerprint function p c') :
    Stamped { r with cache := c', uses := if p.cached then r.uses ++ [key] else r.uses } := by
  cases hpublishes with
  | rejected => exact ⟨h.clock, h.stamp, h.used⟩
  | reused =>
      refine h.touch ?_ ?_ hclock key
      · rfl
      · rfl
  | uncached f opened =>
      cases opened with
      | vacant => exact h.subset rfl fun e he => he
      | occupied => exact h.subset rfl fun e he => he
      | retired => exact h.subset rfl fun e he => (List.mem_filter.mp he).1
  | @stored c₁ c₂ existing f victims opened published holds small evicts =>
      obtain ⟨hkeep, hentries⟩ := evicts_frame haccounted opened small evicts
      have hnext := nextStamp_of_ne (hkeep ▸ hclock)
      have hperm := insert_perm c₂ order key fingerprint ⟨f, c₁.nextCodeGeneration.1⟩ victims
      have hmem : ∀ e ∈ (c₂.insert order key fingerprint ⟨f, c₁.nextCodeGeneration.1⟩
          victims).2.entries, e = (key, c₂.newEntry fingerprint ⟨f, c₁.nextCodeGeneration.1⟩) ∨
            (e ∈ r.cache.entries ∧ e.1 ≠ key) := by
        intro e he
        rcases List.mem_cons.mp (hperm.mem_iff.mp he) with heq | hold
        · exact .inl heq
        · rw [hnext] at hold
          obtain ⟨hold, hne, -⟩ := (hentries e).mp hold
          exact .inr ⟨hold, hne⟩
      refine h.use hclock ?_ ?_ ?_
      · simp only [CodeCache.insert, hnext, hkeep]
      · intro e he hne
        rcases hmem e he with rfl | ⟨hold, -⟩
        · exact absurd rfl hne
        · exact hold
      · intro e he hkey
        rcases hmem e he with rfl | ⟨-, hne⟩
        · simp only [newEntry, hnext, hkeep]
        · exact absurd hkey hne

/-- The clock is not at its end. -/
def ClockRuns (r : CacheRun) (_ : CacheOperation) : Prop :=
  r.cache.accessClock ≠ BitVec.allOnes 64

/-- Whether the clock runs on can be computed. -/
instance (r : CacheRun) (operation : CacheOperation) : Decidable (r.ClockRuns operation) :=
  inferInstanceAs (Decidable (r.cache.accessClock ≠ BitVec.allOnes 64))

/-- An operation keeps the stamps right. -/
lemma Stamped.step {r' : CacheRun} {operation : CacheOperation} (h : Stamped r)
    (haccounted : Accounted r.cache) (hclock : r.ClockRuns operation)
    (hstep : r.step operation = some r') : Stamped r' := by
  have hinvalidate : ∀ key applies b c', r.cache.invalidateIf key applies = some (b, c') →
      Stamped { r with cache := c' } := by
    intro key applies b c' heq
    rcases haccounted.invalidateIf_cases key applies with heq' | ⟨entry, -, -, heq'⟩
    · rw [heq', Option.some.injEq, Prod.mk.injEq] at heq
      obtain rfl := heq.2
      exact h
    · rw [heq', Option.some.injEq, Prod.mk.injEq] at heq
      obtain rfl := heq.2
      exact h.subset rfl fun e he => (List.mem_filter.mp he).1
  cases operation with
  | find key fingerprint =>
      obtain ⟨found, c', heq, hfinds⟩ := haccounted.find_cases r.valid key fingerprint
      simp only [CacheRun.step, CacheRun.find, heq] at hstep
      obtain rfl := Option.some.inj hstep
      exact h.find hclock hfinds
  | publish order key fingerprint function =>
      obtain ⟨p, c', heq, hpublishes⟩ :=
        haccounted.publish_cases r.valid order key fingerprint function
      simp only [CacheRun.step, CacheRun.publish, heq] at hstep
      obtain rfl := Option.some.inj hstep
      exact h.publish haccounted hclock hpublishes
  | invalidate key =>
      simp only [CacheRun.step] at hstep
      obtain ⟨⟨b, c'⟩, heq, hrest⟩ := Option.bind_eq_some_iff.mp hstep
      obtain rfl := Option.some.inj hrest
      exact hinvalidate _ _ b c' heq
  | invalidateFingerprint key fingerprint =>
      simp only [CacheRun.step] at hstep
      obtain ⟨⟨b, c'⟩, heq, hrest⟩ := Option.bind_eq_some_iff.mp hstep
      obtain rfl := Option.some.inj hrest
      exact hinvalidate _ _ b c' heq
  | clear =>
      obtain rfl := Option.some.inj hstep
      exact ⟨h.clock, fun _ he => absurd he List.not_mem_nil,
        fun _ he => absurd he List.not_mem_nil⟩
  | closeToken token =>
      obtain rfl := Option.some.inj hstep
      exact ⟨h.clock, h.stamp, h.used⟩

/-! ## Residency -/

/-- A leased function stands under its key and fingerprint. -/
def Resident (c : CodeCache) (key : CacheKey) (fingerprint : BitVec 64) (lease : CodeLease) :
    Prop :=
  ∃ entry, (key, entry) ∈ c.entries ∧ entry.fingerprint = fingerprint ∧
    entry.function = lease.function ∧ entry.generation = lease.generation

/-- Stamping entries keeps what is resident. -/
lemma Resident.map {c c' : CodeCache} {key : CacheKey} {fingerprint : BitVec 64}
    {lease : CodeLease} (h : Resident c key fingerprint lease)
    (hkeep : ∀ entry, (key, entry) ∈ c.entries → ∃ stamp,
      (key, { entry with lastAccess := stamp }) ∈ c'.entries) :
    Resident c' key fingerprint lease := by
  obtain ⟨entry, hmem, hfingerprint, hfunction, hgeneration⟩ := h
  obtain ⟨stamp, hmem'⟩ := hkeep entry hmem
  exact ⟨_, hmem', hfingerprint, hfunction, hgeneration⟩

/-- A new stamp keeps the entries. -/
lemma nextStamp_keeps {c : CodeCache} {key : CacheKey} {entry : CacheEntry}
    (h : (key, entry) ∈ c.entries) :
    ∃ stamp, (key, { entry with lastAccess := stamp }) ∈ c.nextStamp.2.entries := by
  unfold CodeCache.nextStamp
  split
  · exact ⟨0, List.mem_map.mpr ⟨_, h, rfl⟩⟩
  · exact ⟨entry.lastAccess, h⟩

/-- Marking one entry keeps the others. -/
lemma touch_keeps {c : CodeCache} (touched : CacheKey) {key : CacheKey} {entry : CacheEntry}
    (h : (key, entry) ∈ c.entries) :
    ∃ stamp, (key, { entry with lastAccess := stamp }) ∈ (c.touch touched).entries := by
  obtain ⟨stamp, hmem⟩ := nextStamp_keeps h
  have htouch : (c.touch touched).entries = c.nextStamp.2.entries.map fun e =>
      (e.1, if e.1 = touched then { e.2 with lastAccess := c.nextStamp.1 } else e.2) := rfl
  rw [htouch]
  by_cases hkey : key = touched
  · refine ⟨c.nextStamp.1, List.mem_map.mpr ⟨_, hmem, ?_⟩⟩
    simp [hkey]
  · refine ⟨stamp, List.mem_map.mpr ⟨_, hmem, ?_⟩⟩
    simp [hkey]

/-- A resident function whose assumptions hold is found. -/
lemma find_of_resident (haccounted : Accounted r.cache) {key : CacheKey}
    {fingerprint : BitVec 64} {lease : CodeLease}
    (h : Resident r.cache key fingerprint lease)
    (hholds : lease.function.assumptions.firstInvalid r.valid = none) :
    ∃ c', r.find key fingerprint = some (some lease, c') := by
  obtain ⟨entry, hmem, hfingerprint, hfunction, hgeneration⟩ := h
  have hlookup := lookup_of_mem haccounted.nodup hmem
  obtain ⟨found, c', heq, hfinds⟩ := haccounted.find_cases r.valid key fingerprint
  refine ⟨c', heq.trans ?_⟩
  cases hfinds with
  | missed absent => exact absurd hfingerprint (absent entry hlookup)
  | retired hfound hfailed =>
      rw [hlookup] at hfound
      obtain rfl := Option.some.inj hfound
      rw [hfunction] at hfailed
      exact absurd hholds hfailed
  | hit hfound =>
      rw [hlookup] at hfound
      obtain rfl := Option.some.inj hfound
      rw [hfunction, hgeneration]

/-- The operation does not take the identity `(key, fingerprint)` out of the cache: it does not
clear the cache, invalidate the identity, publish another fingerprint under the key, or evict the
key. -/
def Spares (key : CacheKey) (fingerprint : BitVec 64) (r : CacheRun) : CacheOperation → Prop
  | .find _ _ => True
  | .publish order k f function =>
      (k = key → f = fingerprint) ∧
        ∀ p c', r.publish order k f function = some (p, c') → key ∉ p.evicted.map (·.1)
  | .invalidate k => k ≠ key
  | .invalidateFingerprint k f => k = key → f ≠ fingerprint
  | .clear => False
  | .closeToken _ => True

/-- A publication keeps the entries of the keys that it does not evict. -/
lemma Resident.publish {c c' : CodeCache} {valid : Token → Bool} {order : IterationOrder}
    {key k : CacheKey} {fingerprint f : BitVec 64} {function : Option CompiledCode}
    {p : CodeCachePublication} {lease : CodeLease} (haccounted : Accounted c)
    (h : Resident c key fingerprint lease)
    (hholds : lease.function.assumptions.firstInvalid valid = none)
    (hsame : k = key → f = fingerprint)
    (hpublishes : Publishes c valid order k f function p c')
    (hevicted : key ∉ p.evicted.map (·.1)) : Resident c' key fingerprint lease := by
  obtain ⟨entry, hmem, hfingerprint, hfunction, hgeneration⟩ := id h
  have hlookup := lookup_of_mem haccounted.nodup hmem
  -- under the same identity the resident entry is reused
  have hopened : ∀ {c₁ existing}, Opened c valid k f c₁ existing → k ≠ key := by
    rintro c₁ existing hopened rfl
    cases hopened with
    | vacant missing => simp [hlookup] at missing
    | occupied found other =>
        rw [hlookup] at found
        obtain rfl := Option.some.inj found
        exact other (hfingerprint.trans (hsame rfl).symm)
    | retired found same failed =>
        rw [hlookup] at found
        obtain rfl := Option.some.inj found
        rw [hfunction] at failed
        exact failed hholds
  cases hpublishes with
  | rejected => exact h
  | reused =>
      apply h.map
      intro entry hentry
      apply touch_keeps
      exact hentry
  | uncached g opened =>
      have hne := hopened opened
      apply h.map
      intro entry hentry
      refine ⟨entry.lastAccess, ?_⟩
      cases opened with
      | vacant => exact hentry
      | occupied => exact hentry
      | retired => exact List.mem_filter.mpr ⟨hentry, by simpa using hne.symm⟩
  | @stored c₁ c₂ existing g victims opened published holds small evicts =>
      have hne := hopened opened
      have hentries := (evicts_frame haccounted opened small evicts).2
      have hperm := insert_perm c₂ order k f ⟨g, c₁.nextCodeGeneration.1⟩ victims
      apply h.map
      intro entry hentry
      have hleft : (key, entry) ∈ c₂.entries := (hentries _).mpr ⟨hentry, hne.symm, hevicted⟩
      obtain ⟨stamp, hstamp⟩ := nextStamp_keeps hleft
      exact ⟨stamp, hperm.mem_iff.mpr (List.mem_cons_of_mem _ hstamp)⟩

/-- A token that is closed stays closed. -/
lemma closed_step {r' : CacheRun} {operation : CacheOperation}
    (hstep : r.step operation = some r') : ∀ token, r'.valid token → r.valid token := by
  have hclosed : r'.closed = r.closed ∨ ∃ token, r'.closed = token :: r.closed := by
    cases operation with
    | clear =>
        obtain rfl := Option.some.inj hstep
        exact .inl rfl
    | closeToken token =>
        obtain rfl := Option.some.inj hstep
        exact .inr ⟨token, rfl⟩
    | _ =>
        obtain ⟨_, -, hrest⟩ := Option.bind_eq_some_iff.mp hstep
        obtain rfl := Option.some.inj hrest
        exact .inl rfl
  intro token hvalid
  rcases hclosed with heq | ⟨closed, heq⟩
  · simpa [valid, heq] using hvalid
  · have hvalid : ¬ token ∈ closed :: r.closed := by simpa [valid, heq] using hvalid
    simpa [valid] using fun h => hvalid (List.mem_cons_of_mem _ h)

/-- An entry stays resident unless an operation removes it. -/
lemma Resident.step {r' : CacheRun} {operation : CacheOperation} {key : CacheKey}
    {fingerprint : BitVec 64} {lease : CodeLease} (haccounted : Accounted r.cache)
    (h : Resident r.cache key fingerprint lease)
    (hholds : lease.function.assumptions.firstInvalid r.valid = none)
    (hspares : r.Spares key fingerprint operation) (hstep : r.step operation = some r') :
    Resident r'.cache key fingerprint lease := by
  obtain ⟨entry, hmem, hfingerprint, hfunction, hgeneration⟩ := id h
  have hlookup := lookup_of_mem haccounted.nodup hmem
  have hinvalidate : ∀ k applies b c', (k = key → ¬ applies entry) →
      r.cache.invalidateIf k applies = some (b, c') → Resident c' key fingerprint lease := by
    intro k applies b c' hspare heq
    rcases haccounted.invalidateIf_cases k applies with heq' | ⟨e, hfound, happlies, heq'⟩
    · rw [heq', Option.some.injEq, Prod.mk.injEq] at heq
      obtain rfl := heq.2
      exact h
    · rw [heq', Option.some.injEq, Prod.mk.injEq] at heq
      obtain rfl := heq.2
      have hne : k ≠ key := by
        rintro rfl
        rw [hlookup] at hfound
        obtain rfl := Option.some.inj hfound
        exact hspare rfl happlies
      apply h.map
      intro entry hentry
      exact ⟨entry.lastAccess, List.mem_filter.mpr ⟨hentry, by simpa using hne.symm⟩⟩
  cases operation with
  | find k f =>
      obtain ⟨found, c', heq, hfinds⟩ := haccounted.find_cases r.valid k f
      simp only [CacheRun.step, CacheRun.find, heq] at hstep
      obtain rfl := Option.some.inj hstep
      cases hfinds with
      | missed => exact h
      | @retired e hfound hfailed =>
          have hne : k ≠ key := by
            rintro rfl
            rw [hlookup] at hfound
            obtain rfl := Option.some.inj hfound
            rw [hfunction] at hfailed
            exact hfailed hholds
          apply h.map
          intro entry hentry
          exact ⟨entry.lastAccess, List.mem_filter.mpr ⟨hentry, by simpa using hne.symm⟩⟩
      | hit =>
          apply h.map
          intro entry hentry
          apply touch_keeps
          exact hentry
  | publish order k f function =>
      obtain ⟨p, c', heq, hpublishes⟩ := haccounted.publish_cases r.valid order k f function
      simp only [CacheRun.step, CacheRun.publish, heq] at hstep
      obtain rfl := Option.some.inj hstep
      exact h.publish haccounted hholds hspares.1 hpublishes (hspares.2 p c' heq)
  | invalidate k =>
      obtain ⟨⟨b, c'⟩, heq, hrest⟩ := Option.bind_eq_some_iff.mp hstep
      obtain rfl := Option.some.inj hrest
      exact hinvalidate k _ b c' (fun hk => absurd hk hspares) heq
  | invalidateFingerprint k f =>
      obtain ⟨⟨b, c'⟩, heq, hrest⟩ := Option.bind_eq_some_iff.mp hstep
      obtain rfl := Option.some.inj hrest
      refine hinvalidate k _ b c' (fun hk => ?_) heq
      rw [hfingerprint]
      simpa using (hspares hk).symm
  | clear => exact hspares.elim
  | closeToken token =>
      obtain rfl := Option.some.inj hstep
      exact h

/-- What is resident stays so, and is found while its assumptions hold, in every run that spares
it. -/
lemma resident_run {key : CacheKey} {fingerprint : BitVec 64} {lease : CodeLease}
    {operations : List CacheOperation} {t : CacheRun} (haccounted : Accounted r.cache)
    (h : Resident r.cache key fingerprint lease)
    (hspares : Along step (Spares key fingerprint) r operations)
    (hrun : afterEvents step r operations = some t)
    (hholds : lease.function.assumptions.firstInvalid t.valid = none) :
    ∃ c', t.find key fingerprint = some (some lease, c') := by
  have hback : ∀ {s : CacheRun} {ops}, afterEvents step s ops = some t →
      lease.function.assumptions.firstInvalid s.valid = none := by
    intro s ops hs
    rw [AssumptionSet.firstInvalid_eq_none] at hholds ⊢
    intro d hd
    refine related (I := fun _ => True) (R := fun a b => ∀ token, b.valid token → a.valid token)
      (fun _ _ _ _ _ => trivial) (fun _ _ h => h) (fun _ _ _ h₁ h₂ token h => h₁ token (h₂ token h))
      (fun _ _ _ _ hstep => closed_step hstep) trivial hs d.assumption (hholds d hd)
  induction operations generalizing r with
  | nil =>
      obtain rfl : r = t := by simpa [afterEvents] using hrun
      exact find_of_resident haccounted h hholds
  | cons operation operations ih =>
      obtain ⟨r', hstep, hrest⟩ := afterEvents_cons.mp hrun
      obtain ⟨r'', hstep', haccounted', -⟩ := step_accounted haccounted operation
      rw [hstep] at hstep'
      obtain rfl := Option.some.inj hstep'
      exact ih haccounted' (h.step haccounted (hback hrun) hspares.1 hstep)
        (hspares.2 r' hstep) hrest

/-- What a publication says of its victims, in a state whose stamps are the last uses. -/
lemma Stamped.victims (h : Stamped r) (haccounted : Accounted r.cache) {valid : Token → Bool}
    {order : IterationOrder} {key : CacheKey} {fingerprint : BitVec 64}
    {function : Option CompiledCode} {p : CodeCachePublication} {c' : CodeCache}
    (hpublishes : Publishes r.cache valid order key fingerprint function p c') {i : Nat}
    {victim : CacheKey × CacheEntry} (hi : p.evicted[i]? = some victim) :
    let left := dropVictims (dropKey r.cache.entries key) (p.evicted.take i)
    victim ∈ left ∧
      (∀ e ∈ left, e.1 ≠ victim.1 → lastUse r.uses victim.1 < lastUse r.uses e.1) ∧
      ∃ f, function = some f ∧ ¬ Fits r.cache.limits left f.executableMappingSize := by
  cases hpublishes with
  | rejected => simp at hi
  | reused => simp [reuse] at hi
  | uncached => simp [uncached] at hi
  | @stored c₁ c₂ existing f victims opened published holds small evicts =>
      have hi : victims[i]? = some victim := hi
      show let left := dropVictims (dropKey r.cache.entries key) (victims.take i); _
      have hgeneration : Accounted c₁.nextCodeGeneration.2 :=
        (opened.accounted haccounted).congr rfl rfl rfl rfl
      have hlookup : c₁.nextCodeGeneration.2.lookup key = existing := opened.existing
      have hv := hgeneration.vacated hlookup
      have hlimits : (c₁.nextCodeGeneration.2.vacated key existing).limits = r.cache.limits := by
        rw [← opened.limits]
        cases existing <;> rfl
      have hentries : (c₁.nextCodeGeneration.2.vacated key existing).entries =
          dropKey r.cache.entries key := by
        rw [vacated_entries hlookup]
        show dropKey c₁.entries key = dropKey r.cache.entries key
        cases opened with
        | vacant => rfl
        | occupied => rfl
        | retired => exact dropKey_of_not_mem (not_mem_dropKey r.cache.entries key)
      rw [← hlimits] at evicts small
      obtain ⟨hmem, hleast, hfits⟩ := evicts.victim hv small hi
      rw [hentries] at hmem hleast hfits
      rw [hlimits] at hfits
      refine ⟨hmem, ?_, f, published, hfits⟩
      have hold : ∀ e ∈ dropVictims (dropKey r.cache.entries key) (victims.take i),
          e ∈ r.cache.entries :=
        fun e he => (List.mem_filter.mp (List.mem_filter.mp he).1).1
      intro e he hne
      have hle := hleast e he
      rw [BitVec.le_def, h.stamp _ (hold _ hmem), h.stamp _ (hold _ he)] at hle
      exact lt_of_le_of_ne hle
        (lastUse_ne (h.used _ (hold _ hmem)) (h.used _ (hold _ he)) hne.symm)

/-- Besides the key itself, a publication removes exactly its victims, and it counts them. -/
lemma publishes_evicted {c c' : CodeCache} {valid : Token → Bool} {order : IterationOrder}
    {key : CacheKey} {fingerprint : BitVec 64} {function : Option CompiledCode}
    {p : CodeCachePublication} (haccounted : Accounted c)
    (hpublishes : Publishes c valid order key fingerprint function p c') :
    (∀ k, k ≠ key → (k ∈ c'.entries.map (·.1) ↔
      k ∈ c.entries.map (·.1) ∧ k ∉ p.evicted.map (·.1))) ∧
    c'.statistics.evictions = c.statistics.evictions + BitVec.ofNat 64 p.evicted.length := by
  have hdrop : ∀ entries k, k ≠ key →
      (k ∈ (dropKey entries key).map (·.1) ↔ k ∈ entries.map (·.1)) := by
    intro entries k hk
    constructor
    · intro hmem
      obtain ⟨e, he, rfl⟩ := List.mem_map.mp hmem
      exact List.mem_map_of_mem (List.mem_filter.mp he).1
    · intro hmem
      obtain ⟨e, he, rfl⟩ := List.mem_map.mp hmem
      exact List.mem_map_of_mem (List.mem_filter.mpr ⟨he, by simpa using hk⟩)
  have hnone : ∀ x : BitVec 64, x = x + BitVec.ofNat 64 0 := fun x => by simp
  cases hpublishes with
  | rejected => exact ⟨fun k _ => by simp, hnone _⟩
  | @reused existing =>
      have hkeys : (c.counted.reuse key existing).2.entries.map (·.1) = c.entries.map (·.1) :=
        touch_keys _ key
      refine ⟨fun k _ => ?_, ?_⟩
      · rw [hkeys]
        simp [reuse]
      · rw [reuse_statistics]
        exact hnone _
  | uncached f opened =>
      cases opened with
      | vacant => exact ⟨fun k _ => by simp [uncached, count, nextCodeGeneration, counted], hnone _⟩
      | occupied =>
          exact ⟨fun k _ => by simp [uncached, count, nextCodeGeneration, counted], hnone _⟩
      | retired =>
          refine ⟨fun k hk => ?_, hnone _⟩
          show k ∈ (dropKey c.entries key).map (·.1) ↔ _
          rw [hdrop c.entries k hk]
          simp [uncached]
  | @stored c₁ c₂ existing f victims opened published holds small evicts =>
      have hentries := (evicts_frame haccounted opened small evicts).2
      have hperm := insert_perm c₂ order key fingerprint ⟨f, c₁.nextCodeGeneration.1⟩ victims
      obtain ⟨replaced, retired, -, -, -, hstatistics⟩ :=
        opened.stored_statistics haccounted evicts
      refine ⟨fun k hk => ?_, ?_⟩
      · rw [(hperm.map _).mem_iff, List.map_cons, List.mem_cons, nextStamp_keys]
        show k = key ∨ _ ↔ _ ∧ k ∉ victims.map (·.1)
        constructor
        · intro h
          rcases h with h | h
          · exact absurd h hk
          · obtain ⟨e, he, rfl⟩ := List.mem_map.mp h
            obtain ⟨hold, -, hvictims⟩ := (hentries e).mp he
            exact ⟨List.mem_map_of_mem hold, hvictims⟩
        · rintro ⟨hold, hvictims⟩
          obtain ⟨e, he, rfl⟩ := List.mem_map.mp hold
          exact .inr (List.mem_map_of_mem ((hentries e).mpr ⟨he, hk, hvictims⟩))
      · rw [insert_statistics]
        simp only
        rw [hstatistics]
        rfl

/-- What is reported as cached is resident. -/
lemma publishes_resident {c c' : CodeCache} {valid : Token → Bool} {order : IterationOrder}
    {key : CacheKey} {fingerprint : BitVec 64} {function : Option CompiledCode}
    {p : CodeCachePublication}
    (hpublishes : Publishes c valid order key fingerprint function p c') (hcached : p.cached) :
    ∃ lease, p.handle = some lease ∧ Resident c' key fingerprint lease := by
  cases hpublishes with
  | rejected => simp at hcached
  | @reused existing found same =>
      refine ⟨⟨existing.function, existing.generation⟩, rfl, ?_⟩
      obtain ⟨stamp, hmem⟩ := touch_keeps (c := c.counted.count fun s =>
        { s with publicationReuses := s.publicationReuses + 1 }) key (mem_of_lookup found)
      exact ⟨_, hmem, same, rfl, rfl⟩
  | uncached => simp [uncached] at hcached
  | @stored c₁ c₂ existing f victims opened published holds small evicts =>
      have hperm := insert_perm c₂ order key fingerprint ⟨f, c₁.nextCodeGeneration.1⟩ victims
      exact ⟨_, rfl, _, hperm.mem_iff.mpr List.mem_cons_self, rfl, rfl, rfl⟩

/-- The stamps of a new cache are right. -/
lemma create_stamped (limits : CodeCacheLimits) (targetProfile : TargetProfile) :
    Stamped (create limits targetProfile) :=
  ⟨rfl, fun _ he => absurd he List.not_mem_nil, fun _ he => absurd he List.not_mem_nil⟩

/-- A run whose clock runs on keeps the stamps right. -/
lemma run_stamped {operations : List CacheOperation} {t : CacheRun} (h : Stamped r)
    (haccounted : Accounted r.cache) (hclock : Along step ClockRuns r operations)
    (hrun : afterEvents step r operations = some t) : Stamped t ∧ Accounted t.cache := by
  refine invariant_along (I := fun s => Stamped s ∧ Accounted s.cache) ?_ ⟨h, haccounted⟩ hclock
    hrun
  intro s operation s' hs hclock hstep
  obtain ⟨s'', hstep', haccounted', -⟩ := step_accounted hs.2 operation
  rw [hstep] at hstep'
  obtain rfl := Option.some.inj hstep'
  exact ⟨hs.1.step hs.2 hclock hstep, haccounted'⟩

/-- **Eviction order.** In every run in which the use clock does not wrap, a publication evicts,
one after the other, the entry used longest ago of those left, each time because the new entry does
not fit beside them, and nothing else. What it reports as cached is found under its key and
fingerprint, while the function's assumptions hold, after every continuation that does not take it
out again. -/
theorem cache_evicts_least_recent (limits : CodeCacheLimits) (targetProfile : TargetProfile)
    (operations : List CacheOperation) (r : CacheRun)
    (hrun : afterEvents step (create limits targetProfile) operations = some r)
    (hclock : Along step ClockRuns (create limits targetProfile) operations)
    (order : IterationOrder) (key : CacheKey) (fingerprint : BitVec 64)
    (function : Option CompiledCode) :
    ∃ p c', r.publish order key fingerprint function = some (p, c') ∧
      (∀ i victim, p.evicted[i]? = some victim →
        let left := dropVictims (dropKey r.cache.entries key) (p.evicted.take i)
        victim ∈ left ∧
          (∀ e ∈ left, e.1 ≠ victim.1 → lastUse r.uses victim.1 < lastUse r.uses e.1) ∧
          ∃ f, function = some f ∧ ¬ Fits r.cache.limits left f.executableMappingSize) ∧
      (∀ k, k ≠ key → (k ∈ c'.entries.map (·.1) ↔
        k ∈ r.cache.entries.map (·.1) ∧ k ∉ p.evicted.map (·.1))) ∧
      c'.statistics.evictions = r.cache.statistics.evictions + BitVec.ofNat 64 p.evicted.length ∧
      (p.cached → ∃ lease, p.handle = some lease ∧
        ∀ r' later t, r.step (.publish order key fingerprint function) = some r' →
          afterEvents step r' later = some t → Along step (Spares key fingerprint) r' later →
          lease.function.assumptions.firstInvalid t.valid = none →
          ∃ c'', t.find key fingerprint = some (some lease, c'')) := by
  obtain ⟨hstamped, haccounted⟩ := run_stamped (create_stamped limits targetProfile)
    (create_accounted limits targetProfile) hclock hrun
  obtain ⟨p, c', heq, hpublishes⟩ :=
    haccounted.publish_cases r.valid order key fingerprint function
  obtain ⟨hkeys, hcount⟩ := publishes_evicted haccounted hpublishes
  refine ⟨p, c', heq, fun i victim => hstamped.victims haccounted hpublishes, hkeys, hcount, ?_⟩
  intro hcached
  obtain ⟨lease, hhandle, hresident⟩ := publishes_resident hpublishes hcached
  refine ⟨lease, hhandle, ?_⟩
  intro r' later t hstep hlater hspares hholds
  simp only [step, CacheRun.publish, heq] at hstep
  obtain rfl := Option.some.inj hstep
  exact resident_run (hpublishes.accounted haccounted) hresident hspares hlater hholds

/-- A target. -/
def sampleProfile : TargetProfile :=
  { architecture := .aarch64, abi := .aapcs64, endianness := .little,
    features := requiredFeatures .aarch64 }

/-- A function of one page for the sample profile. -/
def pageSample : CompiledCode :=
  { number := 1, entry := 65536, targetProfile := sampleProfile, executableMappingSize := 4096 }

/-- A cache for two pages, with two functions published and the first one found again. -/
def sampleOperations : List CacheOperation :=
  [.publish .keep [1] 7 (some pageSample), .publish .keep [2] 7 (some pageSample), .find [1] 7]

/-- Room for four entries. -/
def sampleLimits : CodeCacheLimits :=
  { maximumEntries := 4, maximumCodeBytes := 8192 }

/-- The run of the sample operations. -/
def sampleRun : CacheRun :=
  (afterEvents step (create sampleLimits sampleProfile) sampleOperations).getD
    (create sampleLimits sampleProfile)

/-- After the sample run a publication evicts the least recently used entry alone. -/
theorem cache_evicts_least_recent_sample :
    afterEvents step (create sampleLimits sampleProfile) sampleOperations = some sampleRun ∧
      Along step ClockRuns (create sampleLimits sampleProfile) sampleOperations ∧
      ∃ p c', sampleRun.publish .keep [3] 7 (some pageSample) = some (p, c') ∧
        p.evicted.map (·.1) = [[2]] ∧
        c'.statistics.evictions =
          sampleRun.cache.statistics.evictions + BitVec.ofNat 64 p.evicted.length := by
  have hclock : Along step ClockRuns (create sampleLimits sampleProfile) sampleOperations := by
    refine ⟨by decide, fun s₁ h₁ => ?_⟩
    obtain rfl := Option.some.inj h₁
    refine ⟨by decide, fun s₂ h₂ => ?_⟩
    obtain rfl := Option.some.inj h₂
    exact ⟨by decide, fun _ _ => trivial⟩
  obtain ⟨p, c', heq, -, -, hcount, -⟩ := cache_evicts_least_recent sampleLimits sampleProfile
    sampleOperations sampleRun rfl hclock .keep [3] 7 (some pageSample)
  have hevicted : (sampleRun.publish .keep [3] 7 (some pageSample)).map
      (fun x => x.1.evicted.map (·.1)) = some [[2]] := by decide
  rw [heq] at hevicted
  exact ⟨rfl, hclock, p, c', heq, Option.some.inj hevicted, hcount⟩

end CacheRun

end UniJit.Jit
