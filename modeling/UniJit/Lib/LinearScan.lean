import Mathlib.Tactic
import Mathlib.Data.List.Nodup
import Mathlib.Logic.Function.Basic
import UniJit.Lib.Loops

/-!
# Linear-scan register assignment

Positions `0, 1, 2, …` are visited in order. Each position may receive a register of a bank and
keeps it until its last use; `last v` is the last position at which the value of position `v` is
read, collected by `collectUses`. A `Bank` holds the positions whose registers are taken and a stack
of free registers.

`Bank.Inv` is the invariant of the scan. Its main part is `separated`: two positions that hold
the same register have disjoint ranges `[v, last v]`, except where the later one was allowed to
take over the register of an operand that dies right there (`reuses`). The lemmas say that each
move of a scan keeps the invariant: releasing expired registers (`Bank.Inv.expire`), taking a free
register (`take`), leaving a position without one (`skip`), taking the register of an evicted
position (`evict`) and taking over a dying operand's register (`reuse`).
-/

namespace UniJit.Lib

/-! ## Last uses -/

/-- Raise the last use recorded for position `v`. -/
def raiseUse (useIndex : Nat) (lastUse : List Nat) (v : Nat) : List Nat :=
  lastUse.modify v (max · useIndex)

/-- Raising one position changes no other. -/
lemma raiseUse_getD {useIndex v p : Nat} {lastUse : List Nat} :
    (raiseUse useIndex lastUse p).getD v 0 =
      if v = p ∧ v < lastUse.length then max (lastUse.getD v 0) useIndex
      else lastUse.getD v 0 := by
  simp only [raiseUse, List.getD, List.getElem?_modify]
  by_cases hv : v < lastUse.length
  · by_cases heq : p = v
    · simp [hv, heq]
    · simp [hv, heq, Ne.symm heq]
  · simp [hv]

/-- Raising keeps the length. -/
@[simp] lemma length_raiseUse {useIndex p : Nat} {lastUse : List Nat} :
    (raiseUse useIndex lastUse p).length = lastUse.length := by
  simp [raiseUse]

/-- Recording a use at a list of positions raises exactly their entries. -/
lemma foldl_raiseUse_getD {useIndex v : Nat} {lastUse positions : List Nat} :
    (positions.foldl (raiseUse useIndex) lastUse).getD v 0 =
      if v ∈ positions ∧ v < lastUse.length then max (lastUse.getD v 0) useIndex
      else lastUse.getD v 0 := by
  induction positions generalizing lastUse with
  | nil => simp
  | cons p positions ih =>
      rw [List.foldl_cons, ih, length_raiseUse, raiseUse_getD]
      by_cases hv : v < lastUse.length
      · by_cases heq : v = p
        · subst heq
          simp [hv]
        · simp [hv, heq]
      · simp [hv]

/-- Raising several positions keeps the length. -/
@[simp] lemma length_foldl_raiseUse {useIndex : Nat} {lastUse positions : List Nat} :
    (positions.foldl (raiseUse useIndex) lastUse).length = lastUse.length := by
  induction positions generalizing lastUse with
  | nil => rfl
  | cons p positions ih => simp [ih]

/-- One iteration of the collection: position `i` is defined, and uses the positions `used`. -/
def collectStep (lastUse : List Nat) (used : List Nat × Nat) : List Nat :=
  used.1.foldl (raiseUse used.2) (lastUse.set used.2 used.2)

/-- The last uses of positions that use the listed positions one after another. -/
def collectUses (uses : List (List Nat)) : List Nat :=
  uses.zipIdx.foldl collectStep (List.replicate uses.length 0)

@[simp] lemma length_collectStep {lastUse : List Nat} {used : List Nat × Nat} :
    (collectStep lastUse used).length = lastUse.length := by
  simp [collectStep]

/-- What one row leaves at a position. -/
lemma collectStep_getD {lastUse used : List Nat} {i v : Nat} (hv : v < lastUse.length) :
    (collectStep lastUse (used, i)).getD v 0 =
      if v ∈ used then max (if v = i then i else lastUse.getD v 0) i
      else if v = i then i else lastUse.getD v 0 := by
  have hset : (lastUse.set i i).getD v 0 = if v = i then i else lastUse.getD v 0 := by
    by_cases hvi : v = i
    · subst hvi
      simp [List.getD, hv]
    · simp [List.getD, List.getElem?_set_ne (Ne.symm hvi), hvi]
  rw [collectStep, foldl_raiseUse_getD, hset]
  simp [hv]

/-- The last uses collected from the positions below `i`. -/
structure CollectedUpTo (uses : List (List Nat)) (i : Nat) (lastUse : List Nat) : Prop where
  length : lastUse.length = uses.length
  definition : ∀ v < i, v ≤ lastUse.getD v 0
  use : ∀ v p, v < i → p < i → v ∈ uses.getD p [] → p ≤ lastUse.getD v 0
  attained : ∀ v < i, lastUse.getD v 0 = v ∨ v ∈ uses.getD (lastUse.getD v 0) []
  below : ∀ v < i, lastUse.getD v 0 < i

/-- One row more is collected. -/
lemma CollectedUpTo.step {uses : List (List Nat)} {i : Nat} {lastUse : List Nat}
    (hi : i < uses.length) (h : CollectedUpTo uses i lastUse) :
    CollectedUpTo uses (i + 1) (collectStep lastUse (uses[i], i)) := by
  have hget : ∀ v, v ≤ i → (collectStep lastUse (uses[i], i)).getD v 0 =
      if v ∈ uses[i] then max (if v = i then i else lastUse.getD v 0) i
      else if v = i then i else lastUse.getD v 0 :=
    fun v hv => collectStep_getD (by rw [h.length]; omega)
  have huses : uses.getD i [] = uses[i] := by simp [List.getD, List.getElem?_eq_getElem hi]
  refine ⟨by rw [length_collectStep, h.length], fun v hv => ?_, fun v p hv hp hmem => ?_,
    fun v hv => ?_, fun v hv => ?_⟩
  · rw [hget v (by omega)]
    by_cases hvi : v = i
    · simp [hvi]
    · have := h.definition v (by omega)
      simp only [hvi, if_false]
      split_ifs <;> omega
  · rw [hget v (by omega)]
    by_cases hpi : p = i
    · subst hpi
      rw [if_pos (huses ▸ hmem)]
      exact le_max_right _ _
    · by_cases hvi : v = i
      · simp only [hvi, if_true]
        split_ifs <;> omega
      · have := h.use v p (by omega) (by omega) hmem
        simp only [hvi, if_false]
        split_ifs <;> omega
  · rw [hget v (by omega)]
    by_cases hvi : v = i
    · simp [hvi]
    · simp only [hvi, if_false]
      split_ifs with hmem
      · rcases max_choice (lastUse.getD v 0) i with hmax | hmax
        · rw [hmax]
          exact h.attained v (by omega)
        · rw [hmax, huses]
          exact .inr hmem
      · exact h.attained v (by omega)
  · rw [hget v (by omega)]
    by_cases hvi : v = i
    · simp [hvi]
    · have := h.below v (by omega)
      simp only [hvi, if_false]
      split_ifs <;> omega

/-- All rows are collected. -/
lemma collectUses_upTo (uses : List (List Nat)) :
    CollectedUpTo uses uses.length (collectUses uses) := by
  refine foldl_zipIdx_invariant (CollectedUpTo uses)
    ⟨by simp, by simp, by simp, by simp, by simp⟩ fun i used lastUse hused h => ?_
  obtain ⟨hlt, rfl⟩ := List.getElem?_eq_some_iff.mp hused
  exact h.step hlt

@[simp] lemma length_collectUses (uses : List (List Nat)) :
    (collectUses uses).length = uses.length := (collectUses_upTo uses).length

/-- **Last uses**: the collected entry of a position is the greatest of the position itself and
the positions that use it. -/
lemma collectUses_spec (uses : List (List Nat)) {v : Nat} (hv : v < uses.length) :
    v ≤ (collectUses uses).getD v 0 ∧
      (∀ p, v ∈ uses.getD p [] → p ≤ (collectUses uses).getD v 0) ∧
      ((collectUses uses).getD v 0 = v ∨ v ∈ uses.getD ((collectUses uses).getD v 0) []) ∧
      (collectUses uses).getD v 0 < uses.length := by
  have h := collectUses_upTo uses
  refine ⟨h.definition v hv, fun p hp => ?_, h.attained v hv, h.below v hv⟩
  refine h.use v p hv ?_ hp
  by_contra hge
  simp [List.getD, List.getElem?_eq_none (Nat.le_of_not_lt hge)] at hp

/-! ## Register banks -/

/-- The registers of one bank: the positions that hold one, oldest first, and the free ones, the
next to be taken first. -/
structure Bank where
  active : List Nat
  free : List Nat
  deriving DecidableEq, Repr

namespace Bank

/-- The bank with `count` free registers. -/
def full (count : Nat) : Bank := ⟨[], List.range count⟩

/-- Release the registers of the positions whose last use lies before `now`. They are released
in the order of `active`, so the last one is taken again first. -/
def expire (last : Nat → Nat) (reg : Nat → Option Nat) (now : Nat) (b : Bank) : Bank :=
  { active := b.active.filter fun v => ¬ last v < now
    free := (b.active.filter fun v => last v < now).foldl
      (fun free v => (reg v).toList ++ free) b.free }

/-- The invariant of a scan that has visited the positions below `now`. -/
structure Inv (last : Nat → Nat) (reuses : Nat → Nat → Prop) (count now : Nat) (b : Bank)
    (reg : Nat → Option Nat) : Prop where
  active_lt : ∀ v ∈ b.active, v < now
  active_reg : ∀ v ∈ b.active, ∃ r, reg v = some r
  active_nodup : b.active.Nodup
  active_inj : ∀ u ∈ b.active, ∀ v ∈ b.active, reg u = reg v → u = v
  free_nodup : b.free.Nodup
  free_unused : ∀ v ∈ b.active, ∀ r, reg v = some r → r ∉ b.free
  pending : ∀ v, now ≤ v → reg v = none
  retired : ∀ v r, reg v = some r → v ∉ b.active → last v < now
  separated : ∀ u v r, u < v → reg u = some r → reg v = some r →
    last u < v ∨ last u = v ∧ reuses u v
  free_lt : ∀ r ∈ b.free, r < count
  reg_lt : ∀ v r, reg v = some r → r < count

variable {last : Nat → Nat} {reuses : Nat → Nat → Prop} {count now : Nat} {b : Bank}
  {reg : Nat → Option Nat}

/-- The scan starts with every register free. -/
lemma Inv.start : Inv last reuses count 0 (full count) fun _ => none where
  active_lt := by simp [full]
  active_reg := by simp [full]
  active_nodup := by simp [full]
  active_inj := by simp [full]
  free_nodup := by simpa [full] using List.nodup_range
  free_unused := by simp [full]
  pending := by simp
  retired := by simp
  separated := by simp
  free_lt := by simp [full]
  reg_lt := by simp

/-- Only the registers of active positions matter for releasing registers. -/
lemma expire_congr {reg' : Nat → Option Nat} (h : ∀ v ∈ b.active, reg v = reg' v) :
    b.expire last reg now = b.expire last reg' now := by
  have hfold : ∀ vs free : List Nat, (∀ v ∈ vs, v ∈ b.active) →
      vs.foldl (fun free v => (reg v).toList ++ free) free =
        vs.foldl (fun free v => (reg' v).toList ++ free) free := by
    intro vs
    induction vs with
    | nil => simp
    | cons v vs ih =>
        intro free hmem
        simp only [List.foldl_cons]
        rw [h v (hmem v (by simp)), ih _ fun u hu => hmem u (by simp [hu])]
  unfold expire
  rw [hfold _ _ fun v hv => (List.mem_filter.mp hv).1]

/-- Membership in the free list after releases. -/
lemma mem_release {vs free : List Nat} {r : Nat} :
    r ∈ vs.foldl (fun free v => (reg v).toList ++ free) free ↔
      r ∈ free ∨ ∃ v ∈ vs, reg v = some r := by
  induction vs generalizing free with
  | nil => simp
  | cons v vs ih =>
      simp only [List.foldl_cons, ih, List.mem_append, Option.mem_toList, List.mem_cons,
        exists_eq_or_imp]
      tauto

/-- Releasing distinct registers that were not free leaves no duplicates. -/
lemma nodup_release {vs free : List Nat} (hvs : vs.Nodup)
    (inj : ∀ u ∈ vs, ∀ v ∈ vs, reg u = reg v → u = v)
    (fresh : ∀ v ∈ vs, ∀ r, reg v = some r → r ∉ free) (hfree : free.Nodup) :
    (vs.foldl (fun free v => (reg v).toList ++ free) free).Nodup := by
  induction vs generalizing free with
  | nil => simpa using hfree
  | cons v vs ih =>
      obtain ⟨hv, hvs⟩ := List.nodup_cons.mp hvs
      refine ih hvs (fun a ha c hc => inj a (by simp [ha]) c (by simp [hc])) ?_ ?_
      · intro u hu r hr hmem
        rcases List.mem_append.mp hmem with hmem | hmem
        · have hvr : reg v = some r := by simpa using hmem
          have := inj u (by simp [hu]) v (by simp) (hr.trans hvr.symm)
          exact hv (this ▸ hu)
        · exact fresh u (by simp [hu]) r hr hmem
      · cases hreg : reg v with
        | none => simpa [hreg] using hfree
        | some r =>
            have hr : r ∉ free := fresh v (by simp) r hreg
            simpa [hreg] using ⟨hr, hfree⟩

/-- Releasing expired registers keeps the invariant; what stays active is still in use. -/
lemma Inv.expire (h : Inv last reuses count now b reg) :
    Inv last reuses count now (b.expire last reg now) reg ∧
      ∀ v ∈ (b.expire last reg now).active, now ≤ last v := by
  have hsub : ∀ v, v ∈ (b.expire last reg now).active ↔ v ∈ b.active ∧ now ≤ last v := by
    intro v
    simp [Bank.expire]
  refine ⟨?_, fun v hv => ((hsub v).mp hv).2⟩
  have hgone : ∀ u ∈ b.active.filter (fun v => last v < now), u ∈ b.active := by
    intro u hu
    exact (List.mem_filter.mp hu).1
  constructor
  case active_lt => exact fun v hv => h.active_lt v ((hsub v).mp hv).1
  case active_reg => exact fun v hv => h.active_reg v ((hsub v).mp hv).1
  case active_nodup => exact h.active_nodup.filter _
  case active_inj =>
    exact fun u hu v hv => h.active_inj u ((hsub u).mp hu).1 v ((hsub v).mp hv).1
  case free_nodup =>
    exact nodup_release (h.active_nodup.filter _)
      (fun u hu v hv => h.active_inj u (hgone u hu) v (hgone v hv))
      (fun v hv => h.free_unused v (hgone v hv)) h.free_nodup
  case free_unused =>
    intro v hv r hr hmem
    rcases mem_release.mp hmem with hmem | ⟨u, hu, hur⟩
    · exact h.free_unused v ((hsub v).mp hv).1 r hr hmem
    · have huv := h.active_inj u (hgone u hu) v ((hsub v).mp hv).1 (hur.trans hr.symm)
      subst huv
      have := (List.mem_filter.mp hu).2
      have := ((hsub u).mp hv).2
      simp_all
      omega
  case pending => exact h.pending
  case retired =>
    intro v r hr hv
    by_cases hactive : v ∈ b.active
    · by_contra hlast
      exact hv ((hsub v).mpr ⟨hactive, by omega⟩)
    · exact h.retired v r hr hactive
  case separated => exact h.separated
  case free_lt =>
    intro r hr
    rcases mem_release.mp hr with hr | ⟨u, -, hu⟩
    · exact h.free_lt r hr
    · exact h.reg_lt u r hu
  case reg_lt => exact h.reg_lt

/-- A position left without a register. -/
lemma Inv.skip (h : Inv last reuses count now b reg) :
    Inv last reuses count (now + 1) b reg where
  active_lt v hv := Nat.lt_succ_of_lt (h.active_lt v hv)
  active_reg := h.active_reg
  active_nodup := h.active_nodup
  active_inj := h.active_inj
  free_nodup := h.free_nodup
  free_unused := h.free_unused
  pending v hv := h.pending v (by omega)
  retired v r hr hv := Nat.lt_succ_of_lt (h.retired v r hr hv)
  separated := h.separated
  free_lt := h.free_lt
  reg_lt := h.reg_lt

/-- **The general move**: position `now` receives register `r`, which no active position keeps;
the positions of `gone` leave the active list, and their ranges end at `now` or they give up
their register. All moves that hand out a register are instances. -/
lemma Inv.assign {r : Nat} {active' free' : List Nat} {reg' : Nat → Option Nat}
    (h : Inv last reuses count now b reg) (hr : r < count)
    (hactive : ∀ v ∈ active', v = now ∨ v ∈ b.active ∧ reg v ≠ some r ∧ reg' v = reg v)
    (hnodup : active'.Nodup)
    (hfree : ∀ s ∈ free', s ∈ b.free ∧ s ≠ r) (hfreeNodup : free'.Nodup)
    (hnow : reg' now = some r)
    (hreg : ∀ v s, v ≠ now → reg' v = some s → reg v = some s)
    (hretired : ∀ v s, v ≠ now → reg' v = some s → v ∉ active' → last v ≤ now)
    (hholder : ∀ u, u ≠ now → reg' u = some r → last u < now ∨ last u = now ∧ reuses u now)
    (hnowActive : now ∈ active') :
    Inv last reuses count (now + 1) ⟨active', free'⟩ reg' := by
  have hbefore : ∀ v s, v ≠ now → reg' v = some s → v < now := by
    intro v s hv hs
    by_contra hge
    have := h.pending v (by omega)
    rw [hreg v s hv hs] at this
    exact absurd this (by simp)
  constructor
  case active_lt =>
    intro v hv
    rcases hactive v hv with rfl | ⟨hv, -, -⟩
    · exact Nat.lt_succ_self _
    · exact Nat.lt_succ_of_lt (h.active_lt v hv)
  case active_reg =>
    intro v hv
    rcases hactive v hv with rfl | ⟨hv, -, hsame⟩
    · exact ⟨r, hnow⟩
    · rw [hsame]
      exact h.active_reg v hv
  case active_nodup => exact hnodup
  case active_inj =>
    intro u hu v hv huv
    rcases hactive u hu with rfl | ⟨hu, hur, husame⟩
    · rcases hactive v hv with rfl | ⟨hv, hvr, hvsame⟩
      · rfl
      · exact absurd (hvsame ▸ huv.symm.trans hnow) hvr
    · rcases hactive v hv with rfl | ⟨hv, hvr, hvsame⟩
      · exact absurd (husame ▸ huv.trans hnow) hur
      · exact h.active_inj u hu v hv (by rw [← husame, ← hvsame, huv])
  case free_nodup => exact hfreeNodup
  case free_unused =>
    intro v hv s hs hmem
    obtain ⟨hmem, hne⟩ := hfree s hmem
    rcases hactive v hv with rfl | ⟨hv, -, hsame⟩
    · exact hne (Option.some.inj (hs.symm.trans hnow))
    · exact h.free_unused v hv s (hsame ▸ hs) hmem
  case pending =>
    intro v hv
    cases hs : reg' v with
    | none => rfl
    | some s =>
        have := hbefore v s (by omega) hs
        omega
  case retired =>
    intro v s hs hv
    have hne : v ≠ now := fun heq => hv (heq ▸ hnowActive)
    exact Nat.lt_succ_of_le (hretired v s hne hs hv)
  case separated =>
    intro u v s huv hu hv
    by_cases hvnow : v = now
    · subst hvnow
      obtain rfl := Option.some.inj (hv.symm.trans hnow)
      exact hholder u (by omega) hu
    · have hlt := hbefore v s hvnow hv
      exact h.separated u v s huv (hreg u s (by omega) hu) (hreg v s hvnow hv)
  case free_lt => exact fun s hs => h.free_lt s (hfree s hs).1
  case reg_lt =>
    intro v s hs
    by_cases hv : v = now
    · subst hv
      obtain rfl := Option.some.inj (hs.symm.trans hnow)
      exact hr
    · exact h.reg_lt v s (hreg v s hv hs)

/-- A position outside the bank so far is not active. -/
lemma Inv.now_not_mem (h : Inv last reuses count now b reg) : now ∉ b.active :=
  fun hmem => absurd (h.active_lt now hmem) (lt_irrefl _)

/-- An active position is the only one whose register's range reaches `now`. -/
lemma Inv.holder_retired (h : Inv last reuses count now b reg) {v u r : Nat}
    (hv : v ∈ b.active) (hvr : reg v = some r) (hur : reg u = some r) (hne : u ≠ v) :
    last u < now := by
  refine h.retired u r hur fun hu => hne ?_
  exact h.active_inj u hu v hv (hur.trans hvr.symm)

/-- Taking the next free register. -/
lemma Inv.take {r : Nat} {rest : List Nat} (h : Inv last reuses count now b reg)
    (hfree : b.free = r :: rest) :
    Inv last reuses count (now + 1) ⟨b.active ++ [now], rest⟩
      (Function.update reg now (some r)) := by
  have hnodup := h.free_nodup
  rw [hfree, List.nodup_cons] at hnodup
  have hmem : r ∈ b.free := by simp [hfree]
  have hother : ∀ v s, v ≠ now → Function.update reg now (some r) v = some s → reg v = some s := by
    intro v s hv hs
    rwa [Function.update_of_ne hv] at hs
  apply h.assign (h.free_lt r hmem)
  case hactive =>
    intro v hv
    rcases List.mem_append.mp hv with hv | hv
    · have hne : v ≠ now := fun heq => h.now_not_mem (heq ▸ hv)
      exact .inr ⟨hv, fun hr => h.free_unused v hv r hr hmem, Function.update_of_ne hne _ _⟩
    · exact .inl (by simpa using hv)
  case hnodup =>
    exact List.Nodup.append h.active_nodup (by simp) (by simpa using h.now_not_mem)
  case hfree =>
    intro s hs
    exact ⟨by simp [hfree, hs], fun heq => hnodup.1 (heq ▸ hs)⟩
  case hfreeNodup => exact hnodup.2
  case hnow => simp
  case hreg => exact hother
  case hretired =>
    intro v s hv hs hnot
    exact (h.retired v s (hother v s hv hs) fun hmem => hnot (by simp [hmem])).le
  case hholder =>
    intro u hu hur
    have hur := hother u r hu hur
    exact .inl (h.retired u r hur fun hactive => h.free_unused u hactive r hur hmem)
  case hnowActive => simp

/-- Taking the register of an evicted position, which is left without one. -/
lemma Inv.evict {victim r : Nat} (h : Inv last reuses count now b reg) (hv : victim ∈ b.active)
    (hr : reg victim = some r) :
    Inv last reuses count (now + 1) ⟨b.active.map fun v => if v = victim then now else v, b.free⟩
      (Function.update (Function.update reg victim none) now (some r)) := by
  have hvnow : victim ≠ now := fun heq => h.now_not_mem (heq ▸ hv)
  have hother : ∀ v s, v ≠ now →
      Function.update (Function.update reg victim none) now (some r) v = some s →
      v ≠ victim ∧ reg v = some s := by
    intro v s hne hs
    rw [Function.update_of_ne hne] at hs
    by_cases hvic : v = victim
    · subst hvic
      simp at hs
    · exact ⟨hvic, by rwa [Function.update_of_ne hvic] at hs⟩
  apply h.assign (h.reg_lt victim r hr)
  case hactive =>
    intro v hv'
    obtain ⟨u, hu, rfl⟩ := List.mem_map.mp hv'
    split_ifs with heq
    · exact .inl rfl
    · have hne : u ≠ now := fun h' => h.now_not_mem (h' ▸ hu)
      refine .inr ⟨hu, fun hur => heq (h.active_inj u hu victim hv (hur.trans hr.symm)), ?_⟩
      rw [Function.update_of_ne hne, Function.update_of_ne heq]
  case hnodup =>
    refine h.active_nodup.map_on ?_
    intro u hu w hw huw
    split_ifs at huw with h1 h2 h2
    · rw [h1, h2]
    · exact absurd (huw ▸ hw) h.now_not_mem
    · exact absurd (huw ▸ hu) h.now_not_mem
    · exact huw
  case hfree =>
    intro s hs
    exact ⟨hs, fun heq => h.free_unused victim hv r hr (heq ▸ hs)⟩
  case hfreeNodup => exact h.free_nodup
  case hnow => simp
  case hreg => exact fun v s hne hs => (hother v s hne hs).2
  case hretired =>
    intro v s hne hs hnot
    obtain ⟨hvic, hvs⟩ := hother v s hne hs
    refine (h.retired v s hvs fun hmem => hnot ?_).le
    exact List.mem_map.mpr ⟨v, hmem, if_neg hvic⟩
  case hholder =>
    intro u hne hur
    obtain ⟨hvic, hur⟩ := hother u r hne hur
    exact .inl (h.holder_retired hv hr hur hvic)
  case hnowActive => exact List.mem_map.mpr ⟨victim, hv, if_pos rfl⟩

/-- Taking over the register of an operand that dies at `now`. -/
lemma Inv.reuse {operand r : Nat} (h : Inv last reuses count now b reg)
    (hv : operand ∈ b.active) (hr : reg operand = some r) (hlast : last operand = now)
    (hreuse : reuses operand now) :
    Inv last reuses count (now + 1) ⟨b.active.erase operand ++ [now], b.free⟩
      (Function.update reg now (some r)) := by
  have hother : ∀ v s, v ≠ now → Function.update reg now (some r) v = some s → reg v = some s := by
    intro v s hne hs
    rwa [Function.update_of_ne hne] at hs
  have hmemErase : ∀ v, v ∈ b.active.erase operand ↔ v ≠ operand ∧ v ∈ b.active := by
    intro v
    exact h.active_nodup.mem_erase_iff
  apply h.assign (h.reg_lt operand r hr)
  case hactive =>
    intro v hv'
    rcases List.mem_append.mp hv' with hv' | hv'
    · obtain ⟨hne, hmem⟩ := (hmemErase v).mp hv'
      have hnow : v ≠ now := fun heq => h.now_not_mem (heq ▸ hmem)
      refine .inr ⟨hmem, fun hvr => hne ?_, Function.update_of_ne hnow _ _⟩
      exact h.active_inj v hmem operand hv (hvr.trans hr.symm)
    · exact .inl (by simpa using hv')
  case hnodup =>
    refine List.Nodup.append (h.active_nodup.erase _) (by simp) ?_
    simp only [List.disjoint_singleton]
    exact fun hmem => h.now_not_mem ((hmemErase now).mp hmem).2
  case hfree =>
    intro s hs
    exact ⟨hs, fun heq => h.free_unused operand hv r hr (heq ▸ hs)⟩
  case hfreeNodup => exact h.free_nodup
  case hnow => simp
  case hreg => exact hother
  case hretired =>
    intro v s hne hs hnot
    by_cases hop : v = operand
    · exact (hop ▸ hlast).le
    · refine (h.retired v s (hother v s hne hs) fun hmem => hnot ?_).le
      exact List.mem_append.mpr (.inl ((hmemErase v).mpr ⟨hop, hmem⟩))
  case hholder =>
    intro u hne hur
    have hur := hother u r hne hur
    by_cases hop : u = operand
    · subst hop
      exact .inr ⟨hlast, hreuse⟩
    · exact .inl (h.holder_retired hv hr hur hop)
  case hnowActive => simp

end Bank

end UniJit.Lib
