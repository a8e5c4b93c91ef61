import Mathlib.Tactic

/-!
# Little-endian bytes

`leBytes n w` are the `n` low bytes of a bit vector, lowest first, as a writer emits them by
shifting; `ofLeBytes m bs` puts bytes together again, as a reader does by shifting and joining.
Bit `i` of the joined value is bit `i % 8` of byte `i / 8` (`getLsbD_ofLeBytes`), and so the two
functions are inverse to each other when the widths agree.
-/

namespace UniJit.Lib

/-! ## Register numerals -/

/-- There are register numbers below 16. -/
instance neZero_sixteen : NeZero 16 := ⟨by decide⟩

/-- There are register numbers below 32. -/
instance neZero_thirtyTwo : NeZero 32 := ⟨by decide⟩

/-! ## Bytes of a word -/

/-- The `n` low bytes of a bit vector, lowest first. -/
def leBytes {m : Nat} (n : Nat) (w : BitVec m) : List (BitVec 8) :=
  (List.range n).map fun i => (w >>> (8 * i)).setWidth 8

/-- The value of a list of bytes, lowest first. -/
def ofLeBytes (m : Nat) (bs : List (BitVec 8)) : BitVec m :=
  bs.zipIdx.foldl (fun acc (b, i) => acc ||| b.setWidth m <<< (8 * i)) 0

@[simp] lemma length_leBytes {m : Nat} (n : Nat) (w : BitVec m) : (leBytes n w).length = n := by
  simp [leBytes]

@[simp] lemma leBytes_one (b : BitVec 8) : leBytes 1 b = [b] := by
  simp [leBytes, List.range_one]

/-- The bits of bytes joined so far. -/
lemma getLsbD_foldl_join {m : Nat} (bs : List (BitVec 8)) (start i : Nat) (acc : BitVec m) :
    ((bs.zipIdx start).foldl (fun acc (b, i) => acc ||| b.setWidth m <<< (8 * i)) acc).getLsbD i =
      (acc.getLsbD i ||
        (decide (i < m ∧ 8 * start ≤ i) &&
          (bs.getD (i / 8 - start) 0).getLsbD (i % 8))) := by
  induction bs generalizing start acc with
  | nil => simp
  | cons b bs ih =>
      rw [List.zipIdx_cons, List.foldl_cons, ih (start + 1)]
      simp only [BitVec.getLsbD_or, BitVec.getLsbD_shiftLeft, BitVec.getLsbD_setWidth]
      by_cases hm : i < m
      · rcases lt_trichotomy (i / 8) start with hlt | heq | hgt
        · have h1 : i < 8 * start := by omega
          have h2 : ¬8 * start ≤ i := by omega
          have h3 : ¬8 * (start + 1) ≤ i := by omega
          simp [h1, h2, h3]
        · have h1 : ¬i < 8 * start := by omega
          have h2 : 8 * start ≤ i := by omega
          have h3 : ¬8 * (start + 1) ≤ i := by omega
          have h4 : i - 8 * start = i % 8 := by omega
          have h5 : i / 8 - start = 0 := by omega
          have h6 : i - 8 * start < m := by omega
          simp [hm, h1, h2, h3, h4, h5, h4 ▸ h6]
        · have h1 : ¬i < 8 * start := by omega
          have h2 : 8 * start ≤ i := by omega
          have h3 : 8 * (start + 1) ≤ i := by omega
          have h4 : b.getLsbD (i - 8 * start) = false :=
            BitVec.getLsbD_of_ge _ _ (by omega)
          have h5 : i / 8 - start = (i / 8 - (start + 1)) + 1 := by omega
          simp [hm, h2, h3, h4, h5]
      · simp [hm]

/-- The bits of joined bytes. -/
lemma getLsbD_ofLeBytes (m : Nat) (bs : List (BitVec 8)) (i : Nat) :
    (ofLeBytes m bs).getLsbD i = (decide (i < m) && (bs.getD (i / 8) 0).getLsbD (i % 8)) := by
  unfold ofLeBytes
  rw [getLsbD_foldl_join]
  simp

/-- Reading what was written. -/
lemma ofLeBytes_leBytes {m : Nat} {n : Nat} (hm : m = 8 * n) (w : BitVec m) :
    ofLeBytes m (leBytes n w) = w := by
  apply BitVec.eq_of_getLsbD_eq
  intro i hi
  have hbyte : i / 8 < n := by omega
  have hbit : 8 * (i / 8) + i % 8 = i := by omega
  have hmod : i % 8 < 8 := Nat.mod_lt _ (by omega)
  rw [getLsbD_ofLeBytes]
  simp [leBytes, List.getD, hbyte, hi, hmod, BitVec.getLsbD_ushiftRight, hbit]

/-- Writing what was read. -/
lemma leBytes_ofLeBytes {m n : Nat} (hm : 8 * n ≤ m) {bs : List (BitVec 8)} (hn : bs.length = n) :
    leBytes n (ofLeBytes m bs) = bs := by
  apply List.ext_getElem (by simp [hn])
  intro i hi hi'
  apply BitVec.eq_of_getLsbD_eq
  intro j hj
  have hlt : 8 * i + j < m := by omega
  have hdiv : (8 * i + j) / 8 = i := by omega
  have hmod : (8 * i + j) % 8 = j := by omega
  have hbyte : bs.getD i 0 = bs[i] := by simp [List.getD, hi']
  simp only [leBytes, List.getElem_map, List.getElem_range, BitVec.getLsbD_setWidth, hj,
    BitVec.getLsbD_ushiftRight, getLsbD_ofLeBytes, hlt, hdiv, hmod, hbyte, decide_true,
    Bool.true_and]

end UniJit.Lib
