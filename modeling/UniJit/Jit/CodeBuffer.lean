import UniJit.Status
import UniJit.Lib.LittleEndian

/-!
# The code buffer

An assembler appends bytes to a buffer and patches branches in it once their targets are known.
`Emit` is a computation on the buffer. The lemmas describe it on a buffer `front ++ code` whose
front stays as it is: positions are counted from the end of the front, so what a sequence of
emitters leaves behind can be computed without knowing where in the buffer it stands.
-/

namespace UniJit.Jit

open UniJit UniJit.Lib

/-- The bytes of the code so far. -/
abbrev CodeBytes := List (BitVec 8)

/-- An emission of bytes. -/
abbrev Emit := StateM CodeBytes

namespace CodeBuffer

/-- Appends bytes. -/
def emit (bytes : CodeBytes) : Emit Unit := modify (· ++ bytes)

/-- Appends an instruction word. -/
def emitU32 (instruction : BitVec 32) : Emit Unit := emit (leBytes 4 instruction)

/-- The number of bytes so far. -/
def size : Emit Nat := do return (← get).length

/-- Overwrite bytes from an offset on. -/
def patchBytes (bytes : CodeBytes) : Nat → CodeBytes → CodeBytes
  | 0, code => bytes ++ code.drop bytes.length
  | _, [] => []
  | offset + 1, byte :: code => byte :: patchBytes bytes offset code

/-- Exchanges an instruction word that was emitted. -/
def patchU32 (offset : Nat) (instruction : BitVec 32) : Emit Unit :=
  modify (patchBytes (leBytes 4 instruction) offset)

/-- Patches in a row; the first that fails ends it. -/
def patchAll : List (Emit (Except Status Unit)) → Emit (Except Status Unit)
  | [] => pure (.ok ())
  | patch :: patches => do
      match ← patch with
      | .ok () => patchAll patches
      | .error status => pure (.error status)

lemma run_emit_end (bytes code : CodeBytes) : (emit bytes).run code = pure ((), code ++ bytes) := rfl

/-! ## Behind a front -/

section front

variable (front code bytes : CodeBytes)

lemma run_emit : (emit bytes).run (front ++ code) = pure ((), front ++ (code ++ bytes)) := by
  rw [← List.append_assoc]
  rfl

/-- What emitting a word leaves. -/
lemma run_emitU32 (instruction : BitVec 32) :
    (emitU32 instruction).run (front ++ code) =
      pure ((), front ++ (code ++ leBytes 4 instruction)) :=
  run_emit front code _

lemma run_size : size.run (front ++ code) = pure (front.length + code.length, front ++ code) := by
  rw [← List.length_append]
  rfl

/-- A patch behind a front leaves the front alone. -/
lemma patchBytes_append (offset : Nat) :
    patchBytes bytes (front.length + offset) (front ++ code) =
      front ++ patchBytes bytes offset code := by
  induction front with
  | nil => simp
  | cons byte front ih =>
      rw [List.length_cons, Nat.add_right_comm, List.cons_append, patchBytes, ih]
      rfl

/-- What patching a word leaves. -/
lemma run_patchU32 (offset : Nat) (instruction : BitVec 32) :
    (patchU32 (front.length + offset) instruction).run (front ++ code) =
      pure ((), front ++ patchBytes (leBytes 4 instruction) offset code) := by
  rw [← patchBytes_append]
  rfl

end front

/-! ## Computing a patch -/

/-- A patch behind a byte leaves the byte alone. -/
lemma patchBytes_cons (bytes code : CodeBytes) (offset : Nat) (byte : BitVec 8) :
    patchBytes bytes (offset + 1) (byte :: code) = byte :: patchBytes bytes offset code := by
  rw [patchBytes]

/-- The patch of an empty field. -/
lemma patchBytes_field (instruction field : BitVec 32) (code : CodeBytes) :
    patchBytes (leBytes 4 instruction) 0 (leBytes 4 field ++ code) =
      leBytes 4 instruction ++ code := by
  rw [patchBytes]
  rfl

/-- A patch behind a field. -/
lemma patchBytes_skip (bytes code : CodeBytes) (field : BitVec 32) (offset : Nat) :
    patchBytes bytes (offset + 4) (leBytes 4 field ++ code) =
      leBytes 4 field ++ patchBytes bytes offset code := by
  rw [Nat.add_comm]
  exact patchBytes_append (leBytes 4 field) code bytes offset

/-! ## Reading a buffer -/

/-- The bytes from a place on. -/
def slice (code : CodeBytes) (start count : Nat) : CodeBytes := (code.drop start).take count

/-- The instruction at a place. -/
def wordAt (code : CodeBytes) (offset : Nat) : BitVec 32 := ofLeBytes 32 (slice code offset 4)

/-- A patch exchanges the bytes at its offset. -/
lemma patchBytes_eq (bytes : CodeBytes) {offset : Nat} {code : CodeBytes}
    (h : offset ≤ code.length) :
    patchBytes bytes offset code = code.take offset ++ (bytes ++ code.drop (offset + bytes.length)) := by
  have hpatch := patchBytes_append (code.take offset) (code.drop offset) bytes 0
  rw [List.take_append_drop, List.length_take, min_eq_left h, Nat.add_zero, patchBytes,
    List.drop_drop] at hpatch
  exact hpatch

section reading

variable {bytes code : CodeBytes} {offset : Nat}

/-- A patch inside the code keeps its size. -/
lemma length_patchBytes (h : offset + bytes.length ≤ code.length) :
    (patchBytes bytes offset code).length = code.length := by
  rw [patchBytes_eq bytes (by omega)]
  simp
  omega

/-- A patch is read where it was written. -/
lemma slice_patchBytes (h : offset + bytes.length ≤ code.length) :
    slice (patchBytes bytes offset code) offset bytes.length = bytes := by
  have htake : (code.take offset).length = offset := by
    rw [List.length_take]
    omega
  rw [slice, patchBytes_eq bytes (by omega), List.drop_append_of_le_length (by omega),
    List.drop_of_length_le (by omega), List.nil_append, List.take_left]

/-- Bytes beside a patch stay as they are. -/
lemma slice_patchBytes_of_disjoint (h : offset + bytes.length ≤ code.length) {start count : Nat}
    (hdisjoint : start + count ≤ offset ∨ offset + bytes.length ≤ start) :
    slice (patchBytes bytes offset code) start count = slice code start count := by
  have htake : (code.take offset).length = offset := by
    rw [List.length_take]
    omega
  rw [slice, slice, patchBytes_eq bytes (by omega)]
  rcases hdisjoint with hbefore | hbehind
  · rw [List.drop_append_of_le_length (by omega),
      List.take_append_of_le_length (by rw [List.length_drop]; omega), List.drop_take,
      List.take_take, min_eq_left (by omega)]
  · rw [List.drop_append, List.drop_of_length_le (by omega), List.nil_append, htake,
      List.drop_append, List.drop_of_length_le (by omega), List.nil_append, List.drop_drop]
    congr 2
    omega

/-- A slice does not see what follows. -/
lemma slice_append (more : CodeBytes) {start count : Nat} (h : start + count ≤ code.length) :
    slice (code ++ more) start count = slice code start count := by
  rw [slice, slice, List.drop_append_of_le_length (by omega),
    List.take_append_of_le_length (by rw [List.length_drop]; omega)]

/-- The word that was patched in is there. -/
lemma wordAt_patchBytes {word : BitVec 32} (h : offset + 4 ≤ code.length) :
    wordAt (patchBytes (leBytes 4 word) offset code) offset = word := by
  have hslice : slice (patchBytes (leBytes 4 word) offset code) offset (leBytes 4 word).length =
      leBytes 4 word := slice_patchBytes (by rwa [length_leBytes])
  rw [length_leBytes] at hslice
  rw [wordAt, hslice]
  exact ofLeBytes_leBytes (m := 32) (n := 4) rfl word

end reading

end CodeBuffer

end UniJit.Jit
