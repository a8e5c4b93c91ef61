import UniJit.Ir.ControlFlowFacts

/-!
# Dominance

The verifier computes the dominator matrix by sweeps over the blocks: it starts with every block
dominated by every block, the entry only by itself, and replaces each row by the meet of the rows
of the block's predecessors until a sweep changes nothing.

A sweep only clears entries (`Below`), so the loop reaches a matrix that satisfies the dominator
equations (`dominates_iff`). That a block dominates another one is here nothing but a solution of
these equations; what runs need of it is that dominance passes backwards over edges
(`dominates_edge`).
-/

namespace UniJit.Ir.ControlFlowFunction

open UniJit.Lib

variable {f : ControlFlowFunction}

/-- A row of the matrix below another one: each of its marks is a mark of the other. -/
abbrev RowBelow : List Bool → List Bool → Prop := List.Forall₂ fun x y => x = true → y = true

/-- A matrix below another one. -/
abbrev Below : List (List Bool) → List (List Bool) → Prop := List.Forall₂ RowBelow

/-- A row is below itself. -/
lemma RowBelow.refl (row : List Bool) : RowBelow row row := by
  induction row with
  | nil => exact .nil
  | cons x row ih => exact .cons id ih

/-- A matrix is below itself. -/
lemma Below.refl (rows : List (List Bool)) : Below rows rows := by
  induction rows with
  | nil => exact .nil
  | cons row rows ih => exact .cons (RowBelow.refl row) ih

/-- Rows below rows are ordered transitively. -/
lemma RowBelow.trans {a b c : List Bool} (hab : RowBelow a b) (hbc : RowBelow b c) :
    RowBelow a c := by
  induction hab generalizing c with
  | nil => exact hbc
  | cons hxy _ ih =>
      cases hbc with
      | cons hyz hbc => exact .cons (hyz ∘ hxy) (ih hbc)

/-- Matrices below matrices are ordered transitively. -/
lemma Below.trans {a b c : List (List Bool)} (hab : Below a b) (hbc : Below b c) : Below a c := by
  induction hab generalizing c with
  | nil => exact hbc
  | cons hxy _ ih =>
      cases hbc with
      | cons hyz hbc => exact .cons (RowBelow.trans hxy hyz) (ih hbc)

/-- The entry of a matrix at a row and a column. -/
def marked (rows : List (List Bool)) (b c : Nat) : Bool := (rows.getD b []).getD c false

/-- A mark of a lower row is a mark of the upper one. -/
lemma RowBelow.getD {a b : List Bool} (h : RowBelow a b) {c : Nat} (hc : a.getD c false = true) :
    b.getD c false = true := by
  induction h generalizing c with
  | nil => simp at hc
  | cons hxy _ ih =>
      cases c with
      | zero => exact hxy (by simpa using hc)
      | succ c => simpa using ih (by simpa using hc)

/-- Lower matrices have lower rows. -/
lemma Below.row {a b : List (List Bool)} (h : Below a b) (k : Nat) :
    RowBelow (a.getD k []) (b.getD k []) := by
  induction h generalizing k with
  | nil => simp
  | cons hxy _ ih =>
      cases k with
      | zero => simpa using hxy
      | succ k => simpa using ih k

lemma Below.marked {a b : List (List Bool)} (h : Below a b) {k c : Nat}
    (hmark : marked a k c = true) : ControlFlowFunction.marked b k c = true :=
  (h.row k).getD hmark

/-- A row given by a stronger test is below the row given by a weaker one. -/
lemma RowBelow.map {l : List Nat} {g h : Nat → Bool} (hgh : ∀ c, g c = true → h c = true) :
    RowBelow (l.map g) (l.map h) := by
  induction l with
  | nil => exact .nil
  | cons c l ih => exact .cons (hgh c) ih

/-- Replacing a row by a row below it. -/
lemma Below.set {rows : List (List Bool)} {b : Nat} {row : List Bool}
    (h : b < rows.length → RowBelow row (rows.getD b [])) : Below (rows.set b row) rows := by
  induction rows generalizing b with
  | nil => exact .nil
  | cons first rows ih =>
      cases b with
      | zero => exact .cons (by simpa using h (by simp)) (Below.refl rows)
      | succ b =>
          refine .cons (RowBelow.refl first) (ih fun hb => ?_)
          simpa using h (by simpa using hb)

/-- The number of marks of a matrix. -/
def markCount (rows : List (List Bool)) : Nat :=
  (rows.map fun row => (row.map Bool.toNat).sum).sum

/-- A lower matrix is equal or has fewer marks. -/
lemma Below.eq_or_markCount_lt {a b : List (List Bool)} (h : Below a b) :
    a = b ∨ markCount a < markCount b := by
  apply eq_or_sum_lt_of_forall₂ _ h
  intro row row' hrow
  apply eq_or_sum_lt_of_forall₂ _ hrow
  intro x y hxy
  cases x <;> cases y <;> simp_all

/-! ## The sweeps -/

/-- A recomputed row has one entry for each block. -/
lemma dominatorRow_length (rows : List (List Bool)) (b : Nat) :
    (f.dominatorRow rows b).length = f.blocks.length := by
  simp [dominatorRow]

/-- A recomputed row marks the block itself and what all its predecessors mark. -/
lemma dominatorRow_getD {rows : List (List Bool)} {b c : Nat} :
    (f.dominatorRow rows b).getD c false = true ↔
      c < f.blocks.length ∧ (c = b ∨ ∀ p ∈ f.predecessors b, marked rows p c = true) := by
  unfold dominatorRow marked
  by_cases hc : c < f.blocks.length
  · simp [List.getD, hc]
  · simp [List.getD, hc]

/-- Rows of lower matrices are lower. -/
lemma dominatorRow_mono {a b : List (List Bool)} (h : Below a b) (k : Nat) :
    RowBelow (f.dominatorRow a k) (f.dominatorRow b k) := by
  apply RowBelow.map
  intro c hmark
  simp only [Bool.or_eq_true, beq_iff_eq, List.all_eq_true] at hmark ⊢
  rcases hmark with hself | hall
  · exact .inl hself
  · exact .inr fun p hp => h.marked (hall p hp)

/-- The matrices that occur: square, with every row after the first above the row that its
predecessors give it. -/
structure Shrinking (f : ControlFlowFunction) (rows : List (List Bool)) : Prop where
  length : rows.length = f.blocks.length
  square : ∀ row ∈ rows, row.length = f.blocks.length
  above : ∀ b, 1 ≤ b → b < f.blocks.length → RowBelow (f.dominatorRow rows b) (rows.getD b [])

/-- Recomputing one row keeps a matrix shrinking and goes down. -/
lemma Shrinking.set {rows : List (List Bool)} (h : f.Shrinking rows) {b : Nat} (hb : 1 ≤ b)
    (hlt : b < f.blocks.length) :
    f.Shrinking (rows.set b (f.dominatorRow rows b)) ∧
      Below (rows.set b (f.dominatorRow rows b)) rows := by
  have hbelow : Below (rows.set b (f.dominatorRow rows b)) rows :=
    Below.set fun _ => h.above b hb hlt
  refine ⟨⟨by rw [List.length_set, h.length], fun row hrow => ?_, fun k hk hklt => ?_⟩, hbelow⟩
  · rcases List.mem_or_eq_of_mem_set hrow with hmem | rfl
    · exact h.square row hmem
    · exact dominatorRow_length rows b
  · by_cases hkb : b = k
    · subst hkb
      have hget : (rows.set b (f.dominatorRow rows b)).getD b [] = f.dominatorRow rows b := by
        simp [List.getD, h.length, hlt]
      rw [hget]
      exact dominatorRow_mono hbelow b
    · have hget : (rows.set b (f.dominatorRow rows b)).getD k [] = rows.getD k [] := by
        simp [List.getD, List.getElem?_set_ne hkb]
      rw [hget]
      exact (dominatorRow_mono hbelow k).trans (h.above k hk hklt)

/-- The matrix after the sweep has visited the rows `1, …, k`. -/
def sweepTo (f : ControlFlowFunction) (rows : List (List Bool)) (k : Nat) : List (List Bool) :=
  (List.range' 1 k).foldl
    (fun rows blockIndex => rows.set blockIndex (f.dominatorRow rows blockIndex)) rows

/-- A sweep recomputes one more row at a time. -/
lemma sweepTo_succ (rows : List (List Bool)) (k : Nat) :
    f.sweepTo rows (k + 1) =
      (f.sweepTo rows k).set (k + 1) (f.dominatorRow (f.sweepTo rows k) (k + 1)) := by
  simp [sweepTo, List.range'_1_concat, Nat.add_comm 1]

/-- A sweep up to a row keeps a matrix shrinking and goes down. -/
lemma Shrinking.sweepTo {rows : List (List Bool)} (h : f.Shrinking rows) {k : Nat}
    (hk : k < f.blocks.length) : f.Shrinking (f.sweepTo rows k) ∧ Below (f.sweepTo rows k) rows := by
  induction k with
  | zero => exact ⟨h, Below.refl rows⟩
  | succ k ih =>
      obtain ⟨hshrinking, hbelow⟩ := ih (by omega)
      rw [sweepTo_succ]
      obtain ⟨hset, hsetBelow⟩ := hshrinking.set (b := k + 1) (by omega) hk
      exact ⟨hset, hsetBelow.trans hbelow⟩

/-- A whole sweep keeps a matrix shrinking and goes down. -/
lemma Shrinking.sweep {rows : List (List Bool)} (h : f.Shrinking rows) :
    f.Shrinking (f.dominatorSweep rows) ∧ Below (f.dominatorSweep rows) rows := by
  by_cases hempty : f.blocks.length = 0
  · have hsweep : f.dominatorSweep rows = rows := by simp [dominatorSweep, hempty]
    rw [hsweep]
    exact ⟨h, Below.refl rows⟩
  · exact h.sweepTo (by omega)

/-- A later visit of a sweep does not change an earlier row. -/
lemma sweepTo_getD {rows : List (List Bool)} {k b : Nat} (h : k < b) :
    (f.sweepTo rows k).getD b [] = rows.getD b [] := by
  induction k with
  | zero => rfl
  | succ k ih =>
      rw [sweepTo_succ, ← ih (by omega)]
      simp [List.getD, List.getElem?_set_ne (show k + 1 ≠ b by omega)]

/-- A sweep does not come back to a row it has passed. -/
lemma sweepTo_getD_le {rows : List (List Bool)} {k l b : Nat} (hb : b ≤ k) (hk : k ≤ l) :
    (f.sweepTo rows l).getD b [] = (f.sweepTo rows k).getD b [] := by
  induction l, hk using Nat.le_induction with
  | base => rfl
  | succ l _ ih =>
      rw [sweepTo_succ, ← ih]
      simp [List.getD, List.getElem?_set_ne (show l + 1 ≠ b by omega)]

/-- A matrix that a sweep leaves as it is satisfies the dominator equations. -/
lemma Shrinking.dominatorRow_eq {rows : List (List Bool)} (h : f.Shrinking rows)
    (fixed : f.dominatorSweep rows = rows) {b : Nat} (hb : 1 ≤ b) (hlt : b < f.blocks.length) :
    f.dominatorRow rows b = rows.getD b [] := by
  -- every visit of the sweep leaves the matrix as it is, since no later visit could restore a row
  have hvisit : ∀ k, k < f.blocks.length → f.sweepTo rows k = rows := by
    intro k hk
    have hbelow := (h.sweepTo hk).2
    apply List.ext_getElem?
    intro j
    have hlength : (f.sweepTo rows k).length = rows.length := hbelow.length_eq
    have hrow : (f.sweepTo rows k).getD j [] = rows.getD j [] := by
      rcases Nat.lt_or_ge k j with hlater | hearlier
      · exact sweepTo_getD hlater
      · rw [← sweepTo_getD_le hearlier (show k ≤ f.blocks.length - 1 by omega)]
        exact congrArg (·.getD j []) fixed
    by_cases hj : j < rows.length
    · have hj' : j < (f.sweepTo rows k).length := by omega
      simpa [List.getD, List.getElem?_eq_getElem hj, List.getElem?_eq_getElem hj'] using hrow
    · rw [List.getElem?_eq_none (by omega), List.getElem?_eq_none (by omega)]
  obtain ⟨k, rfl⟩ : ∃ k, b = k + 1 := ⟨b - 1, by omega⟩
  have hnext := hvisit (k + 1) hlt
  rw [sweepTo_succ, hvisit k (by omega)] at hnext
  have hget := congrArg (·.getD (k + 1) []) hnext
  have hlen : k + 1 < rows.length := by rw [h.length]; exact hlt
  simpa [List.getD, hlen] using hget

/-! ## The matrix -/

/-- The matrix before the first sweep. -/
def initialMatrix (f : ControlFlowFunction) : List (List Bool) :=
  (List.range f.blocks.length).map fun row =>
    (List.range f.blocks.length).map fun column => row ≠ 0 ∨ column = 0

/-- The initial matrix is shrinking. -/
lemma initialMatrix_shrinking : f.Shrinking f.initialMatrix := by
  refine ⟨by simp [initialMatrix], fun row hrow => ?_, fun b hb hlt => ?_⟩
  · obtain ⟨k, -, rfl⟩ := List.mem_map.mp hrow
    simp
  · have hrow : f.initialMatrix.getD b [] =
        (List.range f.blocks.length).map fun _ => true := by
      have hb0 : b ≠ 0 := by omega
      simp [initialMatrix, List.getD, hlt, hb0]
    rw [hrow]
    exact RowBelow.map fun _ _ => rfl

/-- The initial matrix has at most one mark for each pair of blocks. -/
lemma markCount_initialMatrix : markCount f.initialMatrix ≤ f.blocks.length * f.blocks.length := by
  have hrow : ∀ row ∈ f.initialMatrix, (row.map Bool.toNat).sum ≤ f.blocks.length := by
    intro row hrow
    have hlength := initialMatrix_shrinking.square row hrow
    have hle := List.sum_le_card_nsmul (row.map Bool.toNat) 1 (by
      intro n hn
      obtain ⟨x, -, rfl⟩ := List.mem_map.mp hn
      exact Bool.toNat_le x)
    simpa [hlength] using hle
  have hle := List.sum_le_card_nsmul
    (f.initialMatrix.map fun row => (row.map Bool.toNat).sum) f.blocks.length (by
      intro n hn
      obtain ⟨row, hmem, rfl⟩ := List.mem_map.mp hn
      exact hrow row hmem)
  simpa [markCount, initialMatrix_shrinking.length] using hle

lemma dominates_shrinking : f.Shrinking f.dominates :=
  stabilize_invariant f.Shrinking (fun _ h => h.sweep.1) initialMatrix_shrinking

/-- The computed matrix is a fixed point of the sweep. -/
lemma dominates_fixed : f.dominatorSweep f.dominates = f.dominates := by
  apply stabilize_fixed f.Shrinking markCount (fun _ h => h.sweep.1) _ initialMatrix_shrinking
    markCount_initialMatrix
  intro rows h hchanged
  exact (h.sweep.2.eq_or_markCount_lt).resolve_left hchanged

/-- Block `c` dominates block `b`. -/
def Dominates (f : ControlFlowFunction) (c b : Nat) : Prop := marked f.dominates b c = true

/-- **The dominator equations**: a block after the entry is dominated by itself and by the blocks
that dominate all of its predecessors. -/
lemma dominates_iff {b c : Nat} (hb : 1 ≤ b) (hlt : b < f.blocks.length) :
    f.Dominates c b ↔
      c < f.blocks.length ∧ (c = b ∨ ∀ p ∈ f.predecessors b, f.Dominates c p) := by
  unfold Dominates
  rw [← dominatorRow_getD, dominates_shrinking.dominatorRow_eq dominates_fixed hb hlt]
  rfl

/-- The entry is dominated by itself alone. -/
lemma dominates_entry {c : Nat} (h : f.Dominates c 0) : c = 0 := by
  have hrow : ∀ fuel rows, (stabilize f.dominatorSweep fuel rows).getD 0 [] = rows.getD 0 [] := by
    intro fuel rows
    apply stabilize_invariant (fun rows' : List (List Bool) => rows'.getD 0 [] = rows.getD 0 []) _
      rfl
    intro rows' hrows'
    rw [← hrows']
    exact sweepTo_getD_le (k := 0) le_rfl (Nat.zero_le _)
  unfold Dominates marked dominates at h
  rw [hrow] at h
  by_contra hne
  cases hn : f.blocks.length with
  | zero => simp [hn] at h
  | succ n =>
      have hc : c < n + 1 := by
        by_contra hcon
        simp [hn, List.getD, hcon] at h
      simp [hn, List.getD, hc, hne] at h

end UniJit.Ir.ControlFlowFunction
