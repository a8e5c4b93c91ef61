import UniJit.Lib.LittleEndian

/-!
# Machine code

An instruction set reads an instruction off the front of a list of bytes and says what it does:
go on behind itself, jump, or trap. `Isa.run` runs the code at a program counter, which counts
bytes.

A `Block` is a list of instructions with their encodings. `Block.Completes` speaks about its
instructions by number: wherever the block stands in the code, a machine that starts at one of its
instructions reaches the end of the block in a state with a given property. The rules `next` and
`jump` follow one instruction each, so a proof about a block never mentions a byte.
-/

namespace UniJit.Lib.MachineCode

/-- What an instruction does. A jump counts from the start of its instruction. -/
inductive Effect (S : Type)
  | next (s : S)
  | jump (displacement : Int) (s : S)
  | trap

/-- Where a machine is after an instruction at `pc`. A trap stops it, and so does a jump in front
of the code. -/
def Effect.after {S : Type} (pc length : Nat) : Effect S → Option (Nat × S)
  | .next s => some (pc + length, s)
  | .jump displacement s =>
      if 0 ≤ (pc : Int) + displacement then some (((pc : Int) + displacement).toNat, s) else none
  | .trap => none

/-- An instruction set over instructions `I` and states `S`. -/
structure Isa (I S : Type) where
  /-- The instruction at the front of some bytes, and its length. -/
  decode : List (BitVec 8) → Option (I × Nat)
  /-- What an instruction of a length does. -/
  step : I → Nat → S → Effect S

namespace Isa

variable {I S : Type} (isa : Isa I S)

/-- One step of the machine that runs `code`. -/
def next (code : List (BitVec 8)) (c : Nat × S) : Option (Nat × S) :=
  (isa.decode (code.drop c.1)).bind fun (i, length) => (isa.step i length c.2).after c.1 length

/-- Some number of steps; there is no result if the machine is stuck before. -/
def run (code : List (BitVec 8)) : Nat → Nat × S → Option (Nat × S)
  | 0, c => some c
  | n + 1, c => (isa.next code c).bind (run code n)

/-- The bytes of an instruction, whatever follows them. -/
def Encodes (i : I) (bytes : List (BitVec 8)) : Prop :=
  ∀ rest, isa.decode (bytes ++ rest) = some (i, bytes.length)

/-- Instruction sets whose instructions are 32-bit words in little-endian order. -/
def decodeWith (decodeWord : BitVec 32 → Option I) : List (BitVec 8) → Option (I × Nat)
  | a :: b :: c :: d :: _ => (decodeWord (ofLeBytes 32 [a, b, c, d])).map (·, 4)
  | _ => none

/-- A word that decodes to an instruction encodes it. -/
lemma encodes_word {decodeWord : BitVec 32 → Option I} {step : I → Nat → S → Effect S} {i : I}
    {word : BitVec 32} (h : decodeWord word = some i) :
    (Isa.mk (decodeWith decodeWord) step).Encodes i (leBytes 4 word) := by
  intro rest
  have hword : ofLeBytes 32 (leBytes 4 word) = word :=
    ofLeBytes_leBytes (m := 32) (n := 4) rfl word
  show (decodeWord (ofLeBytes 32 (leBytes 4 word))).map (·, 4) = some (i, 4)
  rw [hword, h]
  rfl

end Isa

/-! ## Blocks -/

/-- Instructions with their bytes. -/
structure Block {I S : Type} (isa : Isa I S) where
  items : List (I × List (BitVec 8))
  encodes : ∀ item ∈ items, isa.Encodes item.1 item.2

namespace Block

variable {I S : Type} {isa : Isa I S} (b : Block isa)

/-- The bytes of a block of code. -/
def bytes : List (BitVec 8) := b.items.flatMap (·.2)

/-- Where instruction `k` starts in the block. -/
def offset (k : Nat) : Nat := ((b.items.take k).flatMap (·.2)).length

lemma offset_length : b.offset b.items.length = b.bytes.length := by
  rw [offset, List.take_length, bytes]

variable {b} {k j : Nat} {i : I} {bytes : List (BitVec 8)}

/-- The next instruction is behind this one's bytes. -/
lemma offset_succ (h : b.items[k]? = some (i, bytes)) :
    b.offset (k + 1) = b.offset k + bytes.length := by
  rw [offset, offset, List.take_add_one, h]
  simp

/-- Where an instruction of the block is read. -/
lemma decode_offset (h : b.items[k]? = some (i, bytes)) (pre post : List (BitVec 8)) :
    isa.decode ((pre ++ b.bytes ++ post).drop (pre.length + b.offset k)) =
      some (i, bytes.length) := by
  obtain ⟨hk, hitem⟩ := List.getElem?_eq_some_iff.mp h
  have hsplit : b.items = b.items.take k ++ (i, bytes) :: b.items.drop (k + 1) := by
    rw [← hitem, List.getElem_cons_drop, List.take_append_drop]
  have hbytes : b.bytes = (b.items.take k).flatMap (·.2) ++
      (bytes ++ (b.items.drop (k + 1)).flatMap (·.2)) := by
    rw [Block.bytes]
    conv_lhs => rw [hsplit]
    rw [List.flatMap_append, List.flatMap_cons]
  have hdrop : (pre ++ b.bytes ++ post).drop (pre.length + b.offset k) =
      bytes ++ ((b.items.drop (k + 1)).flatMap (·.2) ++ post) := by
    rw [hbytes, List.append_assoc, List.drop_length_add_append, List.append_assoc, offset,
      List.drop_left, List.append_assoc]
  rw [hdrop]
  exact b.encodes _ (List.mem_of_getElem? h) _

section words

variable {decodeWord : BitVec 32 → Option I} {step : I → Nat → S → Effect S}

/-- An instruction of a fixed-width set has four bytes. -/
lemma length_of_encodes_word (h : (Isa.mk (Isa.decodeWith decodeWord) step).Encodes i bytes) :
    bytes.length = 4 := by
  have hdecode : Isa.decodeWith decodeWord (bytes ++ []) = some (i, bytes.length) := h []
  unfold Isa.decodeWith at hdecode
  split at hdecode
  · obtain ⟨_, -, heq⟩ := Option.map_eq_some_iff.mp hdecode
    exact (congrArg Prod.snd heq).symm
  · cases hdecode

/-- Instruction words stand one after the other. -/
lemma offset_words (b : Block (Isa.mk (Isa.decodeWith decodeWord) step)) {k : Nat}
    (hk : k ≤ b.items.length) : b.offset k = 4 * k := by
  induction k with
  | zero => rfl
  | succ k ih =>
      have hlength := length_of_encodes_word (b.encodes _ (List.getElem_mem hk))
      rw [offset_succ (List.getElem?_eq_getElem hk), ih (Nat.le_of_succ_le hk)]
      exact congrArg (4 * k + ·) hlength

end words

/-- A machine that is at instruction `k` of the block, wherever the block stands, reaches the end
of the block in a state with `Q`. -/
def Completes (b : Block isa) (k : Nat) (s : S) (Q : S → Prop) : Prop :=
  ∀ pre post, ∃ n s', isa.run (pre ++ b.bytes ++ post) n (pre.length + b.offset k, s) =
    some (pre.length + b.bytes.length, s') ∧ Q s'

namespace Completes

variable {s s' : S} {Q R : S → Prop}

/-- At its end code completes in its state. -/
lemma done (hk : k = b.items.length) (h : Q s) : b.Completes k s Q := by
  intro pre post
  refine ⟨0, s, ?_, h⟩
  rw [hk, offset_length]
  rfl

/-- One instruction, and what the machine does from where it then is. -/
lemma head (h : b.items[k]? = some (i, bytes))
    (hstep : ∀ base, (isa.step i bytes.length s).after (base + b.offset k) bytes.length =
      some (base + b.offset j, s'))
    (hrest : b.Completes j s' Q) : b.Completes k s Q := by
  intro pre post
  obtain ⟨n, s'', hrun, hQ⟩ := hrest pre post
  refine ⟨n + 1, s'', ?_, hQ⟩
  rw [Isa.run, Isa.next, decode_offset h]
  simp only [Option.bind_some]
  rw [hstep]
  exact hrun

/-- An instruction that goes on behind itself. -/
lemma next (h : b.items[k]? = some (i, bytes)) (hstep : isa.step i bytes.length s = .next s')
    (hrest : b.Completes (k + 1) s' Q) : b.Completes k s Q := by
  refine head h (fun base => ?_) hrest
  rw [hstep, Effect.after, offset_succ h, Nat.add_assoc]

/-- A jump to instruction `j`. -/
lemma jump {displacement : Int} (h : b.items[k]? = some (i, bytes))
    (hstep : isa.step i bytes.length s = .jump displacement s')
    (htarget : (b.offset k : Int) + displacement = b.offset j)
    (hrest : b.Completes j s' Q) : b.Completes k s Q := by
  refine head h (fun base => ?_) hrest
  have hpc : ((base + b.offset k : Nat) : Int) + displacement = (base + b.offset j : Nat) := by
    omega
  rw [hstep, Effect.after, hpc, if_pos (Int.natCast_nonneg _), Int.toNat_natCast]

/-- Code that completes in a state completes in a weaker description of it. -/
lemma weaken (h : b.Completes k s Q) (hQR : ∀ s', Q s' → R s') : b.Completes k s R := by
  intro pre post
  obtain ⟨n, s', hrun, hQ⟩ := h pre post
  exact ⟨n, s', hrun, hQR s' hQ⟩

end Completes

end Block

end UniJit.Lib.MachineCode
