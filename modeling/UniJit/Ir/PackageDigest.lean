import UniJit.Ir.PackageSha256
import UniJit.Lib.Loops
import UniJit.Lib.Sha256

/-!
# The payload digest is SHA-256

`packageSha256` works on bytes, with a table of constants, a schedule that grows by one word a step
and a tail of one or two blocks that it builds apart. `packageSha256_eq_digest` is its agreement
with the hash of `Lib.Sha256`, which knows bit strings only: the blocks of the code are the blocks
of the padded message (`pad_ofBytes`), and compressing one is the same in both
(`variables_compress`).
-/

namespace UniJit.Ir

open UniJit.Lib
open UniJit.Lib.Sha256 (ofBytes bitsOf Variables)

/-! ## Rounds -/

/-- The source's hash state as the specification's eight variables. -/
def HashState.variables (s : HashState) : Variables := ⟨s.a, s.b, s.c, s.d, s.e, s.f, s.g, s.h⟩

/-- The source's rotation by two shifts is a rotation. -/
lemma rotateRight_eq (value : BitVec 32) {amount : Nat} (h : amount < 32) :
    rotateRight value amount = value.rotateRight amount := by
  rw [BitVec.rotateRight_def, Nat.mod_eq_of_lt h, rotateRight]

lemma kRoundConstants_eq : kRoundConstants = Sha256.roundConstants := by decide +kernel

/-- One round of the source is one round of the specification. -/
lemma variables_hashRound (s : HashState) (scheduled constant : BitVec 32) :
    (hashRound s (scheduled, constant)).variables =
      Sha256.round s.variables constant scheduled := by
  simp [hashRound, HashState.variables, Sha256.round, Sha256.sum0, Sha256.sum1, Sha256.choose,
    Sha256.majority, rotateRight_eq]

/-! ## The message schedule -/

/-- The bits of a word loaded from four bytes, most significant first. -/
lemma getMsbD_loadBigEndian (bytes : List Byte) (offset : Nat) {i : Nat} (h : i < 32) :
    (loadBigEndian bytes offset).getMsbD i = (bytes.getD (offset + i / 8) 0).getMsbD (i % 8) := by
  have happend : loadBigEndian bytes offset =
      bytes.getD offset 0 ++ bytes.getD (offset + 1) 0 ++ bytes.getD (offset + 2) 0 ++
        bytes.getD (offset + 3) 0 := by
    simp only [loadBigEndian]
    generalize bytes.getD offset 0 = b0
    generalize bytes.getD (offset + 1) 0 = b1
    generalize bytes.getD (offset + 2) 0 = b2
    generalize bytes.getD (offset + 3) 0 = b3
    apply BitVec.eq_of_getLsbD_eq
    intro j hj
    simp
    grind
  rw [happend]
  simp only [BitVec.getMsbD_append]
  grind

/-- A word of the source's block is a word of the specification's. -/
lemma loadBigEndian_eq {block : List Byte} {t : Nat} (h : 64 ≤ block.length) (ht : t < 16) :
    loadBigEndian block (t * 4) = Sha256.blockWord (ofBytes (block.take 64)) t := by
  have hlength : (((ofBytes (block.take 64)).drop (32 * t)).take 32).length = 32 := by
    simp
    omega
  apply BitVec.eq_of_getMsbD_eq
  intro i hi
  have hbyte : (block.take 64).getD ((32 * t + i) / 8) 0 = block.getD (t * 4 + i / 8) 0 := by
    rw [show (32 * t + i) / 8 = t * 4 + i / 8 by omega, List.getD_eq_getElem?_getD,
      List.getElem?_take_of_lt (by omega), List.getD_eq_getElem?_getD]
  have hbit : (32 * t + i) % 8 = i % 8 := by omega
  calc (loadBigEndian block (t * 4)).getMsbD i
      = (ofBytes (block.take 64)).getD (32 * t + i) false := by
        rw [Sha256.getD_ofBytes, hbyte, hbit, getMsbD_loadBigEndian _ _ hi]
    _ = (((ofBytes (block.take 64)).drop (32 * t)).take 32).getD i false := by
        simp only [List.getD_eq_getElem?_getD, List.getElem?_take_of_lt hi, List.getElem?_drop]
    _ = (Sha256.blockWord (ofBytes (block.take 64)) t).getMsbD i :=
        (Sha256.getMsbD_word hlength i).symm

/-- The source's schedule is the specification's. -/
lemma messageSchedule_eq {block : List Byte} (h : 64 ≤ block.length) :
    messageSchedule block = (List.range 64).map (Sha256.schedule (ofBytes (block.take 64))) := by
  refine foldl_range_invariant
    (fun n words => words = (List.range (16 + n)).map (Sha256.schedule (ofBytes (block.take 64))))
    ?_ ?_
  · apply List.map_congr_left
    intro t ht
    have ht : t < 16 := List.mem_range.mp ht
    rw [loadBigEndian_eq h ht, Sha256.schedule, if_pos ht]
  · rintro n words hn rfl
    have hword : ∀ k, 1 ≤ k → k ≤ 16 →
        (((List.range (16 + n)).map (Sha256.schedule (ofBytes (block.take 64)))).getD
          (n + 16 - k) 0) = Sha256.schedule (ofBytes (block.take 64)) (16 + n - k) := by
      intro k hk hk'
      rw [List.getD_eq_getElem?_getD, List.getElem?_map, List.getElem?_range (by omega)]
      simp [Nat.add_comm]
    dsimp only
    rw [hword 15 (by omega) (by omega), hword 2 (by omega) (by omega), hword 16 (by omega) (by omega),
      hword 7 (by omega) (by omega), ← Nat.add_assoc 16 n 1, List.range_succ, List.map_append,
      List.map_singleton]
    congr 2
    conv_rhs => rw [Sha256.schedule, if_neg (by omega)]
    simp only [Sha256.sigma0, Sha256.sigma1, rotateRight_eq _ (show 7 < 32 by omega),
      rotateRight_eq _ (show 18 < 32 by omega), rotateRight_eq _ (show 17 < 32 by omega),
      rotateRight_eq _ (show 19 < 32 by omega)]
    ring

/-! ## Compression -/

/-- The source's compression of a block is the specification's. -/
lemma variables_compress {block : List Byte} (h : 64 ≤ block.length) (s : HashState) :
    (compress block s).variables = Sha256.compress s.variables (ofBytes (block.take 64)) := by
  have hconstants : kRoundConstants =
      (List.range 64).map fun i => Sha256.roundConstants.getD i 0 := by
    rw [← kRoundConstants_eq]
    decide
  have hrounds : (((messageSchedule block).zip kRoundConstants).foldl hashRound s).variables =
      (List.range 64).foldl (fun t i => Sha256.round t (Sha256.roundConstants.getD i 0)
        (Sha256.schedule (ofBytes (block.take 64)) i)) s.variables := by
    rw [messageSchedule_eq h, hconstants, List.zip_map', List.foldl_map]
    refine (List.foldl_hom HashState.variables fun t i => ?_).symm
    rw [variables_hashRound]
  simp only [compress, Sha256.compress, ← hrounds]
  simp [HashState.variables, BitVec.add_comm]

/-- The blocks of a run of whole blocks are compressed one after the other. -/
lemma variables_foldl_compress (bytes : List Byte) (s : HashState) {n : Nat}
    (h : n * 64 ≤ bytes.length) :
    ((List.range n).foldl (fun s index => compress (bytes.drop (index * 64)) s) s).variables =
      (Sha256.blocks (ofBytes (bytes.take (n * 64)))).foldl Sha256.compress s.variables := by
  have hblocks : Sha256.blocks (ofBytes (bytes.take (n * 64))) =
      (List.range n).map fun i => ofBytes ((bytes.drop (i * 64)).take 64) := by
    have hcount : (ofBytes (bytes.take (n * 64))).length / 512 = n := by
      simp
      omega
    rw [Sha256.blocks, hcount]
    apply List.map_congr_left
    intro i hi
    have hi : i < n := List.mem_range.mp hi
    rw [show 512 * i = 8 * (i * 64) by ring, Sha256.drop_ofBytes, show 512 = 8 * 64 from rfl,
      Sha256.take_ofBytes, List.drop_take, List.take_take, min_eq_left (by omega)]
  rw [hblocks, List.foldl_map]
  refine foldl_range_invariant (fun i (t : HashState) => t.variables = (List.range i).foldl
    (fun v i => Sha256.compress v (ofBytes ((bytes.drop (i * 64)).take 64))) s.variables) rfl ?_
  intro i t hi ht
  rw [List.range_succ, List.foldl_append, ← ht, variables_compress (by rw [List.length_drop]; omega)]
  rfl

/-! ## Padding -/

/-- A byte string as a message of the standard. -/
def message (bytes : List Byte) (h : bytes.length < 2 ^ 61) : Sha256.Message where
  bits := ofBytes bytes
  short := by
    rw [Sha256.length_ofBytes]
    omega

/-- The padded tail is one or two blocks. -/
lemma length_hashTail (bytes : List Byte) :
    (hashTail bytes).length = if bytes.length % 64 < 56 then 64 else 128 := by
  have hleft : (bytes.drop (bytes.length / 64 * 64)).length = bytes.length % 64 := by
    rw [List.length_drop]
    omega
  simp only [hashTail, List.length_append, List.length_reverse, List.length_map,
    List.length_range, List.length_replicate, List.length_singleton, hleft]
  split_ifs <;> omega

/-- The whole blocks of the string and its tail are the padded message. -/
lemma pad_message (bytes : List Byte) (h : bytes.length < 2 ^ 61) :
    Sha256.pad (message bytes h) =
      ofBytes (bytes.take (bytes.length / 64 * 64)) ++ ofBytes (hashTail bytes) := by
  have hleft : (bytes.drop (bytes.length / 64 * 64)).length = bytes.length % 64 := by
    rw [List.length_drop]
    omega
  set zeroBytes := (if bytes.length % 64 < 56 then 64 else 128) - 9 - bytes.length % 64 with hzero
  have hzeros : Sha256.zeros (ofBytes bytes).length = 7 + 8 * zeroBytes := by
    rw [Sha256.length_ofBytes]
    apply Sha256.zeros_eq
    · rw [hzero]
      split_ifs <;> omega
    · rw [hzero]
      split_ifs <;> omega
  have hcount : bitsOf (BitVec.ofNat 64 (ofBytes bytes).length) =
      ofBytes ((List.range 8).map fun index =>
        ((BitVec.ofNat 64 bytes.length * 8) >>> (index * 8)).setWidth 8 : List Byte).reverse := by
    have hbits : BitVec.ofNat 64 (ofBytes bytes).length = BitVec.ofNat 64 bytes.length * 8 := by
      rw [Sha256.length_ofBytes, Nat.mul_comm, BitVec.ofNat_mul]
      rfl
    rw [hbits, Sha256.bitsOf_eq_ofBytes (n := 8) rfl]
    rfl
  have hmark : ofBytes [(0x80 : Byte)] = true :: List.replicate 7 false := by decide
  rw [← Sha256.ofBytes_append, hashTail]
  simp only [hleft, ← hzero]
  rw [← List.append_assoc, ← List.append_assoc, ← List.append_assoc, List.take_append_drop,
    Sha256.ofBytes_append, Sha256.ofBytes_append, Sha256.ofBytes_append, ← hcount, hmark,
    Sha256.ofBytes_replicate_zero, Sha256.pad]
  simp only [message, hzeros, List.replicate_add, List.append_assoc, List.cons_append,
    List.nil_append]

/-- The tail is its first block and, where the bit count did not fit, a second one. -/
lemma blocks_hashTail (bytes : List Byte) :
    Sha256.blocks (ofBytes (hashTail bytes)) =
      ofBytes ((hashTail bytes).take 64) ::
        if (hashTail bytes).length = 128 then [ofBytes (((hashTail bytes).drop 64).take 64)]
        else [] := by
  have hlength := length_hashTail bytes
  have hone : ∀ block : List Byte, block.length = 64 →
      Sha256.blocks (ofBytes block) = [ofBytes block] := by
    intro block hblock
    apply Sha256.blocks_of_length
    rw [Sha256.length_ofBytes, hblock]
  split_ifs with htwo
  · have htake : ((hashTail bytes).take 64).length = 64 := by
      rw [List.length_take]
      omega
    have hdrop : ((hashTail bytes).drop 64).length = 64 := by
      rw [List.length_drop]
      omega
    rw [List.take_of_length_le hdrop.le]
    conv_lhs => rw [← List.take_append_drop 64 (hashTail bytes)]
    rw [Sha256.ofBytes_append, Sha256.blocks_append (by simp [htwo]), hone _ htake, hone _ hdrop]
    rfl
  · have hsingle : (hashTail bytes).length = 64 := by
      split_ifs at hlength <;> omega
    rw [List.take_of_length_le hsingle.le, hone _ hsingle]

/-! ## The digest -/

/-- The words the source starts from are the specification's. -/
lemma initialHash_eq : Sha256.initialHash =
    ⟨0x6a09e667, 0xbb67ae85, 0x3c6ef372, 0xa54ff53a,
      0x510e527f, 0x9b05688c, 0x1f83d9ab, 0x5be0cd19⟩ := by
  have hroots : Sha256.initialHash.words =
      [0x6a09e667, 0xbb67ae85, 0x3c6ef372, 0xa54ff53a,
        0x510e527f, 0x9b05688c, 0x1f83d9ab, 0x5be0cd19] := by
    decide +kernel
  simpa [Sha256.Variables.words, Sha256.Variables.ext_iff] using hroots

/-- The digest of a payload is its SHA-256 hash. -/
theorem packageSha256_eq_digest (bytes : List Byte) (h : bytes.length < 2 ^ 61) :
    ofBytes (packageSha256 bytes) = Sha256.digest (message bytes h) := by
  set body := (List.range (bytes.length / 64)).foldl
    (fun s index => compress (bytes.drop (index * 64)) s)
    { a := 0x6a09e667, b := 0xbb67ae85, c := 0x3c6ef372, d := 0xa54ff53a
      e := 0x510e527f, f := 0x9b05688c, g := 0x1f83d9ab, h := 0x5be0cd19 } with hbody
  set last := if (hashTail bytes).length = 128
    then compress ((hashTail bytes).drop 64) (compress (hashTail bytes) body)
    else compress (hashTail bytes) body with hlast
  have hdigest : packageSha256 bytes = last.words.flatMap fun word : BitVec 32 =>
      (List.range 4).map fun byte => (word >>> ((3 - byte) * 8)).setWidth 8 := rfl
  have hhash : last.variables = Sha256.hash (message bytes h) := by
    have hwhole : 512 ∣ (ofBytes (bytes.take (bytes.length / 64 * 64))).length := by
      simp
      omega
    have hstart : body.variables =
        (Sha256.blocks (ofBytes (bytes.take (bytes.length / 64 * 64)))).foldl Sha256.compress
          Sha256.initialHash := by
      rw [hbody, variables_foldl_compress _ _ (Nat.div_mul_le_self _ _), initialHash_eq,
        HashState.variables]
    rw [Sha256.hash, pad_message, Sha256.blocks_append hwhole, List.foldl_append, ← hstart, hlast,
      blocks_hashTail]
    have hlength := length_hashTail bytes
    split_ifs with htwo
    · rw [variables_compress (by rw [List.length_drop]; omega),
        variables_compress (by omega)]
      rfl
    · rw [variables_compress (by split_ifs at hlength <;> omega)]
      rfl
  have hword : ∀ word : BitVec 32,
      ofBytes ((List.range 4).map fun byte => (word >>> ((3 - byte) * 8)).setWidth 8) =
        bitsOf word := fun word => (Sha256.bitsOf_eq_ofBytes (n := 4) rfl word).symm
  rw [hdigest, Sha256.digest, ← hhash, ofBytes, List.flatMap_assoc]
  exact List.flatMap_congr fun word _ => hword word

/-- Fifty-six bytes are the fewest left over that need a second block for the bit count. -/
theorem packageSha256_eq_digest_replicate :
    (List.replicate 56 (0x61 : Byte)).length < 2 ^ 61 ∧
      ofBytes (packageSha256 (List.replicate 56 0x61)) =
        Sha256.digest (message (List.replicate 56 0x61) (by decide)) :=
  ⟨by decide, packageSha256_eq_digest _ (by decide)⟩

-- The hash of `abc` that the standard prints.
example : packageSha256 [0x61, 0x62, 0x63] =
    [0xba, 0x78, 0x16, 0xbf, 0x8f, 0x01, 0xcf, 0xea, 0x41, 0x41, 0x40, 0xde, 0x5d, 0xae, 0x22, 0x23,
     0xb0, 0x03, 0x61, 0xa3, 0x96, 0x17, 0x7a, 0x9c, 0xb4, 0x10, 0xff, 0x61, 0xf2, 0x00, 0x15,
     0xad] := by decide +kernel

end UniJit.Ir
