import Mathlib

/-!
# The SHA-256 hash of a bit string

The secure hash standard in its own terms. A message is a string of fewer than `2 ^ 64` bits; it is
padded to a multiple of 512 bits (`pad`), cut into blocks (`blocks`), and each block is compressed
into the hash value (`compress`). The constants are what the standard says they are, the first bits
of the fractional parts of roots of primes, and not a table.

A byte string is read with the most significant bit of each byte first (`ofBytes`). The lemmas
about blocks and words are those that an implementation on bytes needs: blocks of an append
(`blocks_append`), padding at a given number of zeros (`zeros_eq`), and the bits of a word
(`getMsbD_word`).
-/

namespace UniJit.Lib.Sha256

/-- A 32-bit word. -/
abbrev Word := BitVec 32

/-! ## Functions and constants -/

/-- The function Ch. -/
def choose (x y z : Word) : Word := (x &&& y) ^^^ (~~~x &&& z)

/-- The function Maj. -/
def majority (x y z : Word) : Word := (x &&& y) ^^^ (x &&& z) ^^^ (y &&& z)

/-- The function Σ₀. -/
def sum0 (x : Word) : Word := x.rotateRight 2 ^^^ x.rotateRight 13 ^^^ x.rotateRight 22

/-- The function Σ₁. -/
def sum1 (x : Word) : Word := x.rotateRight 6 ^^^ x.rotateRight 11 ^^^ x.rotateRight 25

/-- The function σ₀. -/
def sigma0 (x : Word) : Word := x.rotateRight 7 ^^^ x.rotateRight 18 ^^^ x >>> 3

/-- The function σ₁. -/
def sigma1 (x : Word) : Word := x.rotateRight 17 ^^^ x.rotateRight 19 ^^^ x >>> 10

/-- The first 32 bits of the fractional part of the `k`-th root of `n`. -/
def rootFraction (k n : Nat) : Word := BitVec.ofNat 32 (Nat.nthRoot k (n * 2 ^ (32 * k)))

/-- The primes below a bound. -/
def primesBelow (n : Nat) : List Nat := (List.range n).filter (Nat.Prime ·)

/-- One constant for each of the first sixty-four primes. -/
def roundConstants : List Word := (primesBelow 312).map (rootFraction 3)

/-! ## Messages and padding -/

/-- A message short enough for its length to be written in 64 bits. -/
structure Message where
  bits : List Bool
  short : bits.length < 2 ^ 64

/-- The bits of a word, most significant first. -/
def bitsOf {w : Nat} (x : BitVec w) : List Bool := (List.range w).map x.getMsbD

@[simp] lemma length_bitsOf {w : Nat} (x : BitVec w) : (bitsOf x).length = w := by simp [bitsOf]

lemma exists_zeros (l : Nat) : ∃ k, (l + 1 + k) % 512 = 448 :=
  ⟨960 - (l + 1) % 512, by omega⟩

/-- The smallest number of zeros that leaves 64 bits of the last block. -/
def zeros (l : Nat) : Nat := Nat.find (exists_zeros l)

/-- The number of zeros is the least one. -/
lemma zeros_eq {l k : Nat} (h : (l + 1 + k) % 512 = 448) (hk : k < 512) : zeros l = k := by
  rw [zeros, Nat.find_eq_iff]
  exact ⟨h, fun j hj hfits => by omega⟩

/-- The padded message. -/
def pad (m : Message) : List Bool :=
  m.bits ++ [true] ++ List.replicate (zeros m.bits.length) false ++
    bitsOf (BitVec.ofNat 64 m.bits.length)

/-- The blocks of 512 bits. -/
def blocks (bits : List Bool) : List (List Bool) :=
  (List.range (bits.length / 512)).map fun i => (bits.drop (512 * i)).take 512

/-! ## Hashing -/

/-- The eight words of the hash value, and of the working variables. -/
@[ext]
structure Variables where
  a : Word
  b : Word
  c : Word
  d : Word
  e : Word
  f : Word
  g : Word
  h : Word

/-- The eight variables in order. -/
def Variables.words (v : Variables) : List Word := [v.a, v.b, v.c, v.d, v.e, v.f, v.g, v.h]

/-- The square roots of the first eight primes. -/
def initialHash : Variables where
  a := rootFraction 2 2
  b := rootFraction 2 3
  c := rootFraction 2 5
  d := rootFraction 2 7
  e := rootFraction 2 11
  f := rootFraction 2 13
  g := rootFraction 2 17
  h := rootFraction 2 19

/-- The word of 32 bits, most significant first. -/
def word (bits : List Bool) : Word := (BitVec.ofBoolListBE bits).setWidth 32

/-- A word of a block. -/
def blockWord (block : List Bool) (t : Nat) : Word := word ((block.drop (32 * t)).take 32)

/-- The message schedule. -/
def schedule (block : List Bool) (t : Nat) : Word :=
  if t < 16 then blockWord block t
  else sigma1 (schedule block (t - 2)) + schedule block (t - 7) +
    sigma0 (schedule block (t - 15)) + schedule block (t - 16)

/-- One round of the compression. -/
def round (v : Variables) (constant scheduled : Word) : Variables :=
  let t1 := v.h + sum1 v.e + choose v.e v.f v.g + constant + scheduled
  let t2 := sum0 v.a + majority v.a v.b v.c
  { a := t1 + t2, b := v.a, c := v.b, d := v.c
    e := v.d + t1, f := v.e, g := v.f, h := v.g }

/-- Works a block into the variables. -/
def compress (v : Variables) (block : List Bool) : Variables :=
  let t := (List.range 64).foldl
    (fun t i => round t (roundConstants.getD i 0) (schedule block i)) v
  { a := t.a + v.a, b := t.b + v.b, c := t.c + v.c, d := t.d + v.d
    e := t.e + v.e, f := t.f + v.f, g := t.g + v.g, h := t.h + v.h }

/-- The hash of a message. -/
def hash (m : Message) : Variables := (blocks (pad m)).foldl compress initialHash

/-- The 256 bits of the hash value. -/
def digest (m : Message) : List Bool := (hash m).words.flatMap bitsOf

/-! ## Blocks and words -/

/-- Whole blocks in front are blocks of their own. -/
lemma blocks_append {bits rest : List Bool} (h : 512 ∣ bits.length) :
    blocks (bits ++ rest) = blocks bits ++ blocks rest := by
  obtain ⟨n, hn⟩ := h
  have hlength : (bits ++ rest).length / 512 = n + rest.length / 512 := by
    rw [List.length_append, hn]
    omega
  have hbits : bits.length / 512 = n := by omega
  simp only [blocks, hlength, hbits, List.range_add, List.map_append, List.map_map]
  congr 1
  · apply List.map_congr_left
    intro i hi
    have hi : i < n := List.mem_range.mp hi
    rw [List.drop_append_of_le_length (by omega), List.take_append_of_le_length
      (by rw [List.length_drop]; omega)]
  · apply List.map_congr_left
    intro i _
    rw [Function.comp_apply, List.drop_append, List.drop_eq_nil_of_le (by omega),
      List.nil_append]
    congr 2
    omega

lemma blocks_of_length {bits : List Bool} (h : bits.length = 512) : blocks bits = [bits] := by
  simp [blocks, h, List.take_of_length_le]

/-- The bits of a word read from bits. -/
lemma getMsbD_word {bits : List Bool} (h : bits.length = 32) (i : Nat) :
    (word bits).getMsbD i = bits.getD i false := by
  have hcast : word bits = (BitVec.ofBoolListBE bits).cast h := by
    apply BitVec.eq_of_toNat_eq
    have hlt : (BitVec.ofBoolListBE bits).toNat < 2 ^ 32 :=
      (BitVec.ofBoolListBE bits).isLt.trans_eq (congrArg (2 ^ ·) h)
    rw [word, BitVec.toNat_setWidth, BitVec.toNat_cast, Nat.mod_eq_of_lt hlt]
  rw [hcast, BitVec.getMsbD_cast, BitVec.getMsbD_ofBoolListBE]

/-! ## Byte strings -/

/-- The bits of a byte string. -/
def ofBytes (bytes : List (BitVec 8)) : List Bool := bytes.flatMap bitsOf

/-- A byte has eight bits. -/
@[simp] lemma length_ofBytes (bytes : List (BitVec 8)) :
    (ofBytes bytes).length = 8 * bytes.length := by
  simp [ofBytes, List.length_flatMap, mul_comm]

lemma ofBytes_cons (b : BitVec 8) (bytes : List (BitVec 8)) :
    ofBytes (b :: bytes) = bitsOf b ++ ofBytes bytes := rfl

lemma ofBytes_append (bytes rest : List (BitVec 8)) :
    ofBytes (bytes ++ rest) = ofBytes bytes ++ ofBytes rest := List.flatMap_append

/-- A bit of a byte string. -/
lemma getD_ofBytes (bytes : List (BitVec 8)) (i : Nat) :
    (ofBytes bytes).getD i false = (bytes.getD (i / 8) 0).getMsbD (i % 8) := by
  induction bytes generalizing i with
  | nil => simp [ofBytes]
  | cons b bytes ih =>
      rw [ofBytes_cons]
      by_cases hi : i < 8
      · rw [List.getD_append _ _ _ _ (by simpa using hi), Nat.div_eq_of_lt hi,
          Nat.mod_eq_of_lt hi]
        simp [bitsOf, hi]
      · rw [List.getD_append_right _ _ _ _ (by simpa using hi), length_bitsOf, ih]
        obtain ⟨j, rfl⟩ : ∃ j, i = j + 8 := ⟨i - 8, by omega⟩
        simp

/-- Dropping bytes drops their bits. -/
lemma drop_ofBytes (bytes : List (BitVec 8)) (n : Nat) :
    (ofBytes bytes).drop (8 * n) = ofBytes (bytes.drop n) := by
  induction n generalizing bytes with
  | zero => rfl
  | succ n ih =>
      cases bytes with
      | nil => simp [ofBytes]
      | cons b bytes =>
          rw [ofBytes_cons, List.drop_append, length_bitsOf, List.drop_succ_cons, ← ih,
            List.drop_eq_nil_of_le (by rw [length_bitsOf]; omega), List.nil_append]
          congr 1

/-- Taking bytes takes their bits. -/
lemma take_ofBytes (bytes : List (BitVec 8)) (n : Nat) :
    (ofBytes bytes).take (8 * n) = ofBytes (bytes.take n) := by
  induction n generalizing bytes with
  | zero => rfl
  | succ n ih =>
      cases bytes with
      | nil => simp [ofBytes]
      | cons b bytes =>
          rw [ofBytes_cons, List.take_append, length_bitsOf, List.take_succ_cons, ofBytes_cons,
            ← ih, List.take_of_length_le (by rw [length_bitsOf]; omega)]
          congr 2

/-- A bit of a word. -/
lemma getD_bitsOf {w : Nat} (x : BitVec w) (i : Nat) :
    (bitsOf x).getD i false = x.getMsbD i := by
  by_cases hi : i < w
  · simp [bitsOf, hi]
  · rw [List.getD_eq_default _ _ (by simpa using hi), BitVec.getMsbD_of_ge _ _ (by omega)]

/-- The bits of a word are those of its bytes, from the highest byte down. -/
lemma bitsOf_eq_ofBytes {w n : Nat} (h : w = 8 * n) (x : BitVec w) :
    bitsOf x = ofBytes ((List.range n).map fun i => (x >>> ((n - 1 - i) * 8)).setWidth 8) := by
  apply List.ext_getElem (by simp [h])
  intro i hi hi'
  have hin : i < 8 * n := by simpa [h] using hi
  have hbyte : i / 8 < n := by omega
  rw [← List.getD_eq_getElem _ false hi, ← List.getD_eq_getElem _ false hi', getD_bitsOf,
    getD_ofBytes, List.getD_eq_getElem _ _ (by simpa using hbyte), List.getElem_map,
    List.getElem_range, BitVec.getMsbD, BitVec.getMsbD]
  simp
  grind

/-- Zero bytes are zero bits. -/
lemma ofBytes_replicate_zero (n : Nat) :
    ofBytes (List.replicate n 0) = List.replicate (8 * n) false := by
  induction n with
  | zero => rfl
  | succ n ih =>
      rw [List.replicate_succ, ofBytes_cons, ih, Nat.mul_succ, Nat.add_comm, List.replicate_add]
      rfl

end UniJit.Lib.Sha256
