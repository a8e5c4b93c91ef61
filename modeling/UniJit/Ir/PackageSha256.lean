import UniJit.Ir.Vector

/-!
# The payload digest

`packageSha256` is the hash that a portable package carries over its payload. What is proved about
packages does not depend on what it computes; that it is SHA-256 is proved apart.
-/

namespace UniJit.Ir

/-- The source's table of round constants. -/
def kRoundConstants : List (BitVec 32) :=
  [0x428a2f98, 0x71374491, 0xb5c0fbcf, 0xe9b5dba5, 0x3956c25b, 0x59f111f1, 0x923f82a4, 0xab1c5ed5,
   0xd807aa98, 0x12835b01, 0x243185be, 0x550c7dc3, 0x72be5d74, 0x80deb1fe, 0x9bdc06a7, 0xc19bf174,
   0xe49b69c1, 0xefbe4786, 0x0fc19dc6, 0x240ca1cc, 0x2de92c6f, 0x4a7484aa, 0x5cb0a9dc, 0x76f988da,
   0x983e5152, 0xa831c66d, 0xb00327c8, 0xbf597fc7, 0xc6e00bf3, 0xd5a79147, 0x06ca6351, 0x14292967,
   0x27b70a85, 0x2e1b2138, 0x4d2c6dfc, 0x53380d13, 0x650a7354, 0x766a0abb, 0x81c2c92e, 0x92722c85,
   0xa2bfe8a1, 0xa81a664b, 0xc24b8b70, 0xc76c51a3, 0xd192e819, 0xd6990624, 0xf40e3585, 0x106aa070,
   0x19a4c116, 0x1e376c08, 0x2748774c, 0x34b0bcb5, 0x391c0cb3, 0x4ed8aa4a, 0x5b9cca4f, 0x682e6ff3,
   0x748f82ee, 0x78a5636f, 0x84c87814, 0x8cc70208, 0x90befffa, 0xa4506ceb, 0xbef9a3f7, 0xc67178f2]

/-- The source's rotation by two shifts. -/
def rotateRight (value : BitVec 32) (amount : Nat) : BitVec 32 :=
  value >>> amount ||| value <<< (32 - amount)

/-- Four bytes from an offset on, highest first. -/
def loadBigEndian (bytes : List Byte) (offset : Nat) : BitVec 32 :=
  (bytes.getD offset 0).setWidth 32 <<< 24 ||| (bytes.getD (offset + 1) 0).setWidth 32 <<< 16 |||
    (bytes.getD (offset + 2) 0).setWidth 32 <<< 8 ||| (bytes.getD (offset + 3) 0).setWidth 32

/-- The message schedule of a block of 64 bytes. -/
def messageSchedule (block : List Byte) : List (BitVec 32) :=
  (List.range 48).foldl
    (fun schedule extended =>
      let index := extended + 16
      let previous15 := schedule.getD (index - 15) 0
      let previous2 := schedule.getD (index - 2) 0
      let sigma0 := rotateRight previous15 7 ^^^ rotateRight previous15 18 ^^^ previous15 >>> 3
      let sigma1 := rotateRight previous2 17 ^^^ rotateRight previous2 19 ^^^ previous2 >>> 10
      schedule ++ [schedule.getD (index - 16) 0 + sigma0 + schedule.getD (index - 7) 0 + sigma1])
    ((List.range 16).map fun index => loadBigEndian block (index * 4))

/-- The eight words of the hash state. -/
structure HashState where
  a : BitVec 32
  b : BitVec 32
  c : BitVec 32
  d : BitVec 32
  e : BitVec 32
  f : BitVec 32
  g : BitVec 32
  h : BitVec 32

/-- The eight words in the order of the digest. -/
def HashState.words (s : HashState) : List (BitVec 32) := [s.a, s.b, s.c, s.d, s.e, s.f, s.g, s.h]

/-- One round over a schedule word and its round constant. -/
def hashRound (s : HashState) (word : BitVec 32 × BitVec 32) : HashState :=
  let sum1 := rotateRight s.e 6 ^^^ rotateRight s.e 11 ^^^ rotateRight s.e 25
  let choice := (s.e &&& s.f) ^^^ (~~~s.e &&& s.g)
  let temporary1 := s.h + sum1 + choice + word.2 + word.1
  let sum0 := rotateRight s.a 2 ^^^ rotateRight s.a 13 ^^^ rotateRight s.a 22
  let majority := (s.a &&& s.b) ^^^ (s.a &&& s.c) ^^^ (s.b &&& s.c)
  let temporary2 := sum0 + majority
  { a := temporary1 + temporary2, b := s.a, c := s.b, d := s.c
    e := s.d + temporary1, f := s.e, g := s.f, h := s.g }

/-- Works a block into the hash state. -/
def compress (block : List Byte) (s : HashState) : HashState :=
  let t := ((messageSchedule block).zip kRoundConstants).foldl hashRound s
  { a := s.a + t.a, b := s.b + t.b, c := s.c + t.c, d := s.d + t.d
    e := s.e + t.e, f := s.f + t.f, g := s.g + t.g, h := s.h + t.h }

/-- The last one or two blocks: the bytes left, the end mark, zeros, and the bit count. -/
def hashTail (bytes : List Byte) : List Byte :=
  let left := bytes.drop (bytes.length / 64 * 64)
  let paddedBytes := if left.length < 56 then 64 else 128
  let bitCount : BitVec 64 := BitVec.ofNat 64 bytes.length * 8
  left ++ [(0x80 : Byte)] ++ List.replicate (paddedBytes - 9 - left.length) (0 : Byte) ++
    ((List.range 8).map fun index => (bitCount >>> (index * 8)).setWidth 8 : List Byte).reverse

/-- The SHA-256 digest of a byte string. -/
def packageSha256 (bytes : List Byte) : List Byte :=
  let initial : HashState :=
    { a := 0x6a09e667, b := 0xbb67ae85, c := 0x3c6ef372, d := 0xa54ff53a
      e := 0x510e527f, f := 0x9b05688c, g := 0x1f83d9ab, h := 0x5be0cd19 }
  let body := (List.range (bytes.length / 64)).foldl
    (fun s index => compress (bytes.drop (index * 64)) s) initial
  let tail := hashTail bytes
  let first := compress tail body
  let last := if tail.length = 128 then compress (tail.drop 64) first else first
  last.words.flatMap fun (word : BitVec 32) =>
    (List.range 4).map fun byte => (word >>> ((3 - byte) * 8)).setWidth 8

@[simp] lemma length_packageSha256 (bytes : List Byte) : (packageSha256 bytes).length = 32 := by
  simp [packageSha256, HashState.words]

end UniJit.Ir
